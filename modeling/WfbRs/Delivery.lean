import WfbRs.EndToEnd
import WfbRs.Rx.Attended

/-!
# From the senders to the calls of `recv`

What calls of `recv` return of the frames that handles on any streams have sent.  The packets
that reach the capture between two drains are a batch; the capture library hands out those that
pass the installed filter, and the ring keeps the first of them that it has room for.
-/

namespace WfbRs

open Rust Descriptor PcapFilter

/-! ### Batches -/

/-- What reaches a capture between two drains: its packets, and the emissions that they are the
captures of. -/
structure Batch (ι : Type) where
  emitted : List (Emission ι)
  packets : List CapturedPacket

/-- What the sender of a frame and its receiver agree on: payload, sequence number and flags. -/
abbrev Content : Type := List UInt8 × UInt32 × UInt8

/-- What a call hands to its caller: the bytes at the front of the buffer, and of the metadata
the sequence number and the flags. -/
def RecvOut.received (out : RecvOut) : Option Content :=
  match out.result with
  | some (.ok (some (n, rxMeta))) => some (out.buf.take n, rxMeta.seq, rxMeta.flags)
  | _ => none

/-- What the calls of a run hand to their callers. -/
def WfbRx.RecvRun.received (run : WfbRx.RecvRun) : List Content :=
  run.steps.filterMap fun s => s.out.received

namespace Batch

variable {ι : Type}

/-- The packets that the capture library hands out. -/
def handedOut (filter : String → List UInt8 → Bool) (rx : WfbRx) (b : Batch ι) :
    List CapturedPacket :=
  b.packets.filter fun p => filter rx.pcap.filterExp p.bytes

/-- What was sent on a stream in a batch. -/
def contents (cfg : ι → WfbTxConfig) (streamId : UInt32) (b : Batch ι) : List Content :=
  (b.emitted.filter fun e => (cfg e.call.handle).streamId = streamId).map fun e => e.call.content

lemma length_contents_le (cfg : ι → WfbTxConfig) (streamId : UInt32) (b : Batch ι) :
    (b.contents cfg streamId).length ≤ b.emitted.length := by
  rw [contents, List.length_map]
  exact List.length_filter_le _ _

/-- The frames of a batch that pass the checks are the entries of its packets. -/
lemma acceptedFrames_handedOut (filter : String → List UInt8 → Bool) (rx : WfbRx) (b : Batch ι) :
    rx.acceptedFrames (b.handedOut filter rx) =
      (b.packets.map CapturedPacket.bytes).filterMap (entry filter rx) := by
  rw [WfbRx.acceptedFrames, handedOut, List.filterMap_filter, List.filterMap_map]
  rfl

/-- From an empty ring, a drain keeps the first of what was sent on the receiver's stream. -/
lemma kept_handedOut {cfg : ι → WfbTxConfig} {rcfg : WfbRxConfig} {rx : WfbRx}
    {filter : String → List UInt8 → Bool} (hrx : (WfbRx.open rcfg).Returns (.ok rx))
    (hfilter : Implements filter) {b : Batch ι}
    (hair : OnAir rx b.emitted (b.packets.map CapturedPacket.bytes))
    (hwf : ∀ e ∈ b.emitted, e.WellFormed cfg) :
    (rx.kept (b.handedOut filter rx)).map Frame.content =
      (b.contents cfg rcfg.streamId).take rx.ringSize := by
  rw [WfbRx.kept, List.map_take, acceptedFrames_handedOut, hair.entries hrx hfilter hwf, contents]

end Batch

/-! ### Calls with large buffers -/

namespace WfbRx

/-- A frame that fits the buffer is handed over as it is. -/
lemma Answer.received {rx : WfbRx} {buf : List UInt8} {world : World} {out : RecvOut}
    {f : Option Frame} (h : Answer rx buf world out f)
    (hfits : ∀ g ∈ f, g.payload.length ≤ buf.length) : out.received = f.map Frame.content := by
  cases h with
  | frame f hresult hbuf =>
      have hlen := hfits f rfl
      rw [RecvOut.received, hresult]
      simp only [hbuf, min_eq_left hlen, List.take_of_length_le hlen, List.take_left',
        Option.map_some]
      rfl
  | timeout hresult => simp [RecvOut.received, hresult]
  | failed errno hresult => simp [RecvOut.received, hresult]
  | rejected _ heq => simp [RecvOut.received, heq]
  | running hresult => simp [RecvOut.received, hresult]

/-- A call leaves a buffer of the same length. -/
lemma Answer.length_buf {rx : WfbRx} {buf : List UInt8} {world : World} {out : RecvOut} {f : Option Frame}
    (h : Answer rx buf world out f) : out.buf.length = buf.length := by
  cases h with
  | frame f _ heq =>
      rw [heq, List.length_append, List.length_take, List.length_drop]
      omega
  | timeout _ _ heq => rw [heq]
  | failed _ _ _ heq => rw [heq]
  | rejected _ heq => rw [heq]
  | running _ heq => rw [heq]

/-- The calls of a run are the first of the calls it was given. -/
lemma recvs_calls {rx : WfbRx} {world : World} {calls : List RecvCall} {run : RecvRun}
    (h : recvs rx world calls = .ok run) : run.steps.map RecvStep.call <+: calls := by
  induction calls generalizing rx world run with
  | nil =>
      obtain rfl := Except.ok.inj h
      exact List.prefix_rfl
  | cons call calls ih =>
      rw [recvs] at h
      obtain ⟨out, -, h⟩ := bind_eq_ok.mp h
      by_cases hrunning : out.result = none
      · rw [if_pos hrunning] at h
        obtain rfl := Except.ok.inj h
        exact List.prefix_append [call] calls
      · rw [if_neg hrunning] at h
        obtain ⟨rest, hrest, h⟩ := bind_eq_ok.mp h
        obtain rfl := Except.ok.inj h
        exact (List.prefix_cons_inj call).mpr (ih hrest)

/-- The frames kept by the drains of a run fit a slot. -/
lemma length_of_kept {rx : WfbRx} {batch : List CapturedPacket} {f : Frame}
    (h : f ∈ rx.kept batch) : f.payload.length ≤ rx.maxPayload := by
  obtain ⟨p, -, hp⟩ := List.mem_filterMap.mp (List.mem_of_mem_take h)
  exact acceptedFrame_length hp

/-- With buffers that hold any payload, the calls of a run from an empty ring hand over the
frames they take as they are. -/
lemma RunSpec.received {rx : WfbRx} {world : World} {run : RecvRun} {taken : List (Option Frame)}
    (h : RunSpec rx world run taken) (hqueue : rx.queue = [])
    (hbuf : ∀ c ∈ run.steps.map RecvStep.call, rx.maxPayload ≤ c.buf.length) :
    run.received = taken.reduceOption.map Frame.content := by
  have hshort : ∀ f ∈ taken.reduceOption, f.payload.length ≤ rx.maxPayload := by
    intro f hf
    have hmem := List.mem_append_left run.rx.queue hf
    rw [h.frames, hqueue, List.nil_append] at hmem
    obtain ⟨d, -, hd⟩ := List.mem_flatMap.mp hmem
    exact length_of_kept hd
  have hanswers := h.answers
  clear h
  rw [RecvRun.received]
  generalize run.steps = steps at hanswers hbuf
  induction hanswers with
  | nil => rfl
  | @cons s f steps taken hanswer _ ih =>
      have hreceived : s.out.received = f.map Frame.content := by
        refine hanswer.received fun g hg => ?_
        obtain rfl := Option.mem_def.mp hg
        exact (hshort g (by simp)).trans (hbuf s.call (by simp))
      have hrest := ih (fun g hg => hshort g (by cases f <;> simp_all)) fun c hc =>
        hbuf c (List.mem_cons_of_mem _ hc)
      rw [List.filterMap_cons, hreceived, hrest]
      cases f <;> simp

/-- A call that has taken a frame hands it over. -/
lemma Answer.received_eq {rx : WfbRx} {buf : List UInt8} {world : World} {out : RecvOut}
    {f : Frame} (h : Answer rx buf world out (some f)) : ∃ c, out.received = some c := by
  cases h with
  | frame _ hresult => exact ⟨_, by rw [RecvOut.received, hresult]⟩

/-- Calls that are attended hand over a frame each, until there are no more. -/
lemma recvs_attended {rx : WfbRx} {world : World} {calls : List RecvCall} {run : RecvRun}
    (hrun : recvs rx world calls = .ok run) (hinv : RingInv rx) {timeout : ℕ}
    (hatt : Attended rx timeout none world)
    (hcalls : ∀ c ∈ calls, c.buf ≠ [] ∧ timeout ≤ c.timeout) :
    min calls.length (rx.ahead world).length ≤ run.received.length := by
  induction calls generalizing rx world run with
  | nil => exact (Nat.min_le_left _ _).trans (Nat.zero_le _)
  | cons c calls ih =>
      obtain ⟨⟨hbuf, hlong⟩, hrest⟩ := List.forall_mem_cons.mp hcalls
      cases hahead : rx.ahead world with
      | nil => exact (Nat.min_le_right _ _).trans (Nat.zero_le _)
      | cons f fs =>
          obtain ⟨out, hout, hanswer, hspec, rfl, hatt'⟩ :=
            recv_takes hatt hinv hbuf hlong hahead
          obtain ⟨content, hreceived⟩ := hanswer.received_eq
          have hresult : out.result ≠ none := by
            intro hnone
            simp [RecvOut.received, hnone] at hreceived
          simp only [recvs, hout, ok_bind, if_neg hresult] at hrun
          obtain ⟨rest, hrecvs, hrun⟩ := bind_eq_ok.mp hrun
          obtain rfl := Except.ok.inj hrun
          have hle := ih hrecvs hspec.inv hatt' hrest
          rw [RecvRun.received, List.filterMap_cons, hreceived]
          simp only [List.length_cons]
          exact (Nat.succ_min_succ _ _).le.trans (Nat.succ_le_succ hle)

end WfbRx

/-! ### Delivery -/

/-- A call succeeds exactly when it is accepted. -/
lemma send_ok_iff {ι : Type} {cfg : WfbTxConfig} {tx : WfbTx} (h : WfbTx.HeaderInv cfg tx) (c : SendCall ι)
    {out : WfbTx.Sent} (hsend : WfbTx.send tx c.payload c.seq c.rc = .ok out) :
    out.result = .ok () ↔ c.Emits := by
  by_cases hfits : c.payload.length ≤ computeMaxPayload
  · obtain ⟨out', hsend', -, -, -, hresult⟩ := WfbTx.send_spec h hfits c.seq c.rc
    obtain rfl := Except.ok.inj (hsend'.symm.trans hsend)
    rw [hresult, SendCall.Emits, and_iff_right hfits]
    cases c.rc <;> simp [Except.isOk, Except.toBool]
  · obtain ⟨e, herror⟩ := WfbTx.send_too_large tx c.seq c.rc hfits
    obtain rfl := Except.ok.inj (herror.symm.trans hsend)
    exact iff_of_false (by simp) fun hemits => hfits hemits.1

section Sends

variable {ι : Type} {cfg : ι → WfbTxConfig} {tx : ι → WfbTx}

/-- Opened handles emit a well-formed frame for each accepted call, in order. -/
lemma sends_opened [DecidableEq ι] (htx : ∀ i, (WfbTx.open (cfg i)).Returns (.ok (tx i)))
    (calls : List (SendCall ι)) : ∃ emitted, sends tx calls = .ok emitted ∧
      emitted.map Emission.call = calls.filter (fun c => decide c.Emits) ∧
      ∀ e ∈ emitted, e.WellFormed cfg := by
  refine sends_spec (fun i => ?_) calls
  obtain ⟨-, fd, heq⟩ := WfbTx.returns_open.mp (htx i)
  rw [heq]
  exact WfbTx.opened_inv (cfg i) fd

/-- The emissions on a stream carry the accepted calls on it. -/
lemma contents_emitted {calls : List (SendCall ι)} {emitted : List (Emission ι)}
    (h : emitted.map Emission.call = calls.filter fun c => decide c.Emits) (streamId : UInt32) :
    (emitted.filter fun e => (cfg e.call.handle).streamId = streamId).map (fun e => e.call.content) =
      (calls.filter fun c => c.Emits ∧ (cfg c.handle).streamId = streamId).map SendCall.content := by
  have hsplit : (calls.filter fun c => c.Emits ∧ (cfg c.handle).streamId = streamId) =
      (calls.filter fun c => decide c.Emits).filter fun c => (cfg c.handle).streamId = streamId := by
    rw [List.filter_filter]
    congr 1
    funext c
    simp [and_comm]
  rw [hsplit, ← h, List.filter_map, List.map_map]
  rfl

end Sends

section Batches

variable {ι : Type} {cfg : ι → WfbTxConfig} {rcfg : WfbRxConfig} {rx : WfbRx}
  {filter : String → List UInt8 → Bool} {batches : List (Batch ι)} {world : World}
  {run : WfbRx.RecvRun} {taken : List (Option Frame)}

/-- What the drains keep of the first batches: of each as much as the ring holds. -/
lemma kept_batches (hrx : (WfbRx.open rcfg).Returns (.ok rx)) (hfilter : Implements filter)
    (hair : ∀ b ∈ batches, OnAir rx b.emitted (b.packets.map CapturedPacket.bytes))
    (hwf : ∀ e ∈ batches.flatMap Batch.emitted, e.WellFormed cfg)
    {drained rest : List (List CapturedPacket)}
    (h : batches.map (Batch.handedOut filter rx) = drained ++ rest) :
    (drained.flatMap rx.kept).map Frame.content = (batches.take drained.length).flatMap
      fun b => (b.contents cfg rcfg.streamId).take rx.ringSize := by
  have hdrained : drained = (batches.take drained.length).map (Batch.handedOut filter rx) := by
    rw [List.map_take, h, List.take_left]
  have hmap : (drained.flatMap rx.kept).map Frame.content =
      (batches.take drained.length).flatMap fun b =>
        (rx.kept (b.handedOut filter rx)).map Frame.content := by
    conv_lhs => rw [hdrained]
    rw [List.flatMap_map, List.map_flatMap]
  rw [hmap]
  refine List.flatMap_congr fun b hb => ?_
  have hb' := List.mem_of_mem_take hb
  exact Batch.kept_handedOut hrx hfilter (hair b hb') fun e he =>
    hwf e (List.mem_flatMap.mpr ⟨b, hb', he⟩)

/-- What a run from an opened receiver hands over of the batches that it has drained: of each as
much as the ring holds. -/
lemma received_batches (hrx : (WfbRx.open rcfg).Returns (.ok rx)) (hfilter : Implements filter)
    (hair : ∀ b ∈ batches, OnAir rx b.emitted (b.packets.map CapturedPacket.bytes))
    (hwf : ∀ e ∈ batches.flatMap Batch.emitted, e.WellFormed cfg)
    (hworld : world.captures = batches.map (Batch.handedOut filter rx))
    (hspec : WfbRx.RunSpec rx world run taken)
    (hbuf : ∀ c ∈ run.steps.map WfbRx.RecvStep.call, computeMaxPayload ≤ c.buf.length) :
    run.received ++ run.rx.queue.map Frame.content =
      (batches.take run.drained.length).flatMap
        fun b => (b.contents cfg rcfg.streamId).take rx.ringSize := by
  obtain ⟨hinv, hqueue⟩ := WfbRx.opened_inv hrx
  have hreceived := hspec.received hqueue fun c hc => by
    rw [hinv.max_eq]
    exact hbuf c hc
  have hkept : (run.drained.flatMap fun d => rx.kept d.batch) =
      (run.drained.map Drain.batch).flatMap rx.kept :=
    (List.flatMap_map _ _ _).symm
  have hbatches := kept_batches hrx hfilter hair hwf (hworld.symm.trans hspec.captures)
  rw [List.length_map] at hbatches
  rw [hreceived, ← List.map_append, hspec.frames, hqueue, List.nil_append, hkept, hbatches]

/-- When no batch has more than the ring holds, nothing of the emissions is missing. -/
lemma contents_batches {n k : ℕ} {streamId : UInt32}
    (hroom : ∀ b ∈ batches, (b.contents cfg streamId).length ≤ n) :
    (batches.take k).flatMap (fun b => (b.contents cfg streamId).take n) ++
        (batches.drop k).flatMap (Batch.contents cfg streamId) =
      ((batches.flatMap Batch.emitted).filter
        fun e => (cfg e.call.handle).streamId = streamId).map fun e => e.call.content := by
  have htake : ((batches.take k).flatMap fun b => (b.contents cfg streamId).take n) =
      (batches.take k).flatMap (Batch.contents cfg streamId) :=
    List.flatMap_congr fun b hb => List.take_of_length_le (hroom b (List.mem_of_mem_take hb))
  rw [htake, ← List.flatMap_append, List.take_append_drop, List.filter_flatMap, List.map_flatMap]
  rfl

/-- What the drains have left of the batches. -/
lemma left_batches {drained rest : List (List CapturedPacket)}
    (h : batches.map (Batch.handedOut filter rx) = drained ++ rest) :
    rest = (batches.drop drained.length).map (Batch.handedOut filter rx) := by
  rw [List.map_drop, h, List.drop_left]

/-- When no batch has more than the ring holds, all of it is ahead of an opened receiver. -/
lemma contents_ahead (hrx : (WfbRx.open rcfg).Returns (.ok rx)) (hfilter : Implements filter)
    (hair : ∀ b ∈ batches, OnAir rx b.emitted (b.packets.map CapturedPacket.bytes))
    (hwf : ∀ e ∈ batches.flatMap Batch.emitted, e.WellFormed cfg)
    (hworld : world.captures = batches.map (Batch.handedOut filter rx))
    (hroom : ∀ b ∈ batches, (b.contents cfg rcfg.streamId).length ≤ rx.ringSize) :
    (rx.ahead world).map Frame.content = ((batches.flatMap Batch.emitted).filter
      fun e => (cfg e.call.handle).streamId = rcfg.streamId).map fun e => e.call.content := by
  obtain ⟨-, hqueue⟩ := WfbRx.opened_inv hrx
  have hkept := kept_batches hrx hfilter hair hwf (List.append_nil _).symm
  have hall := @contents_batches ι cfg batches rx.ringSize batches.length rcfg.streamId hroom
  rw [List.length_map] at hkept
  rw [WfbRx.ahead, hqueue, List.nil_append, hworld, hkept, ← hall, List.drop_length,
    List.flatMap_nil, List.append_nil]

lemma length_ahead (hrx : (WfbRx.open rcfg).Returns (.ok rx)) (hfilter : Implements filter)
    (hair : ∀ b ∈ batches, OnAir rx b.emitted (b.packets.map CapturedPacket.bytes))
    (hwf : ∀ e ∈ batches.flatMap Batch.emitted, e.WellFormed cfg)
    (hworld : world.captures = batches.map (Batch.handedOut filter rx))
    (hroom : ∀ b ∈ batches, (b.contents cfg rcfg.streamId).length ≤ rx.ringSize)
    {sent : List Content} (hsent : ((batches.flatMap Batch.emitted).filter
      fun e => (cfg e.call.handle).streamId = rcfg.streamId).map (fun e => e.call.content) = sent) :
    (rx.ahead world).length = sent.length := by
  rw [← hsent, ← contents_ahead hrx hfilter hair hwf hworld hroom, List.length_map]

end Batches

/-- Nothing is missing where as much is handed over as was sent. -/
lemma received_all {received queued left sent : List Content}
    (h : received ++ queued ++ left = sent) (hlen : sent.length ≤ received.length) :
    received = sent :=
  List.IsPrefix.eq_of_length_le ⟨queued ++ left, by rw [← List.append_assoc, h]⟩ hlen

/-- What the calls of a run hand over of the batches, if no batch has more than the ring holds: all
of it but what is queued and what is in the batches left.  Calls that are attended leave nothing of
it behind, if they are as many. -/
lemma run_delivers {ι : Type} {cfg : ι → WfbTxConfig} {rcfg : WfbRxConfig} {rx : WfbRx}
    (hrx : (WfbRx.open rcfg).Returns (.ok rx)) {filter : String → List UInt8 → Bool}
    (hfilter : Implements filter) {batches : List (Batch ι)}
    (hair : ∀ b ∈ batches, OnAir rx b.emitted (b.packets.map CapturedPacket.bytes))
    (hwf : ∀ e ∈ batches.flatMap Batch.emitted, e.WellFormed cfg) {world : World}
    (hworld : world.captures = batches.map (Batch.handedOut filter rx))
    (hroom : ∀ b ∈ batches, (b.contents cfg rcfg.streamId).length ≤ rx.ringSize)
    {rcalls : List WfbRx.RecvCall} (hbuf : ∀ c ∈ rcalls, computeMaxPayload ≤ c.buf.length)
    {run : WfbRx.RecvRun} (hrun : WfbRx.recvs rx world rcalls = .ok run) {sent : List Content}
    (hsent : ((batches.flatMap Batch.emitted).filter
      fun e => (cfg e.call.handle).streamId = rcfg.streamId).map (fun e => e.call.content) = sent) :
    run.world.captures = (batches.drop run.drained.length).map (Batch.handedOut filter rx) ∧
      run.received ++ run.rx.queue.map Frame.content ++
        (batches.drop run.drained.length).flatMap (Batch.contents cfg rcfg.streamId) = sent ∧
      ∀ timeout, WfbRx.Attended rx timeout none world → (∀ c ∈ rcalls, timeout ≤ c.timeout) →
        sent.length ≤ rcalls.length → run.received = sent := by
  obtain ⟨hinv, -⟩ := WfbRx.opened_inv hrx
  obtain ⟨run', taken, hrun', hspec⟩ := WfbRx.recvs_spec hinv world rcalls
  obtain rfl := Except.ok.inj (hrun'.symm.trans hrun)
  have hframes := received_batches hrx hfilter hair hwf hworld hspec
    fun c hc => hbuf c ((WfbRx.recvs_calls hrun).subset hc)
  have hcaptures := left_batches (hworld.symm.trans hspec.captures)
  rw [List.length_map] at hcaptures
  have hall : run'.received ++ run'.rx.queue.map Frame.content ++
      (batches.drop run'.drained.length).flatMap (Batch.contents cfg rcfg.streamId) = sent := by
    rw [hframes, contents_batches hroom, hsent]
  refine ⟨hcaptures, hall, fun timeout hatt htimeout henough => received_all hall ?_⟩
  have hahead := length_ahead hrx hfilter hair hwf hworld hroom hsent
  have hreceived := WfbRx.recvs_attended hrun hinv hatt fun c hc =>
    ⟨List.ne_nil_of_length_pos ((show 0 < computeMaxPayload by decide).trans_le (hbuf c hc)),
      htimeout c hc⟩
  rwa [hahead, min_eq_right henough] at hreceived

/-- **Delivery through `recv`.** Handles on any streams send in any interleaving; a receiver is
opened on a stream and asked for frames by any calls.  The calls return, in order, what was sent on
that stream: of each batch as much as the ring holds, and all of it when no batch has more.  Calls
that are attended leave nothing of it behind, if they are as many. -/
theorem sends_received {ι : Type} [DecidableEq ι] {cfg : ι → WfbTxConfig} {tx : ι → WfbTx}
    (htx : ∀ i, (WfbTx.open (cfg i)).Returns (.ok (tx i))) (calls : List (SendCall ι))
    {rcfg : WfbRxConfig} {rx : WfbRx} (hrx : (WfbRx.open rcfg).Returns (.ok rx))
    {filter : String → List UInt8 → Bool} (hfilter : Implements filter) :
    ∃ emitted, sends tx calls = .ok emitted ∧
      ∀ batches : List (Batch ι), batches.flatMap Batch.emitted = emitted →
        (∀ b ∈ batches, OnAir rx b.emitted (b.packets.map CapturedPacket.bytes)) →
      ∀ world : World, world.captures = batches.map (Batch.handedOut filter rx) →
      ∀ rcalls : List WfbRx.RecvCall, (∀ c ∈ rcalls, computeMaxPayload ≤ c.buf.length) →
        ∃ run, WfbRx.recvs rx world rcalls = .ok run ∧
          run.received ++ run.rx.queue.map Frame.content =
            (batches.take run.drained.length).flatMap
              (fun b => (b.contents cfg rcfg.streamId).take rx.ringSize) ∧
          ((∀ b ∈ batches, (b.contents cfg rcfg.streamId).length ≤ rx.ringSize) →
            run.received ++ run.rx.queue.map Frame.content ++
                (batches.drop run.drained.length).flatMap (Batch.contents cfg rcfg.streamId) =
              (calls.filter fun c => c.Emits ∧ (cfg c.handle).streamId = rcfg.streamId).map
                SendCall.content) ∧
          ((∀ b ∈ batches, (b.contents cfg rcfg.streamId).length ≤ rx.ringSize) →
            ∀ timeout, WfbRx.Attended rx timeout none world →
              (∀ c ∈ rcalls, timeout ≤ c.timeout) →
              (calls.filter fun c => c.Emits ∧
                (cfg c.handle).streamId = rcfg.streamId).length ≤ rcalls.length →
              run.received = (calls.filter fun c => c.Emits ∧
                (cfg c.handle).streamId = rcfg.streamId).map SendCall.content) := by
  obtain ⟨emitted, hsends, hcalls, hwf⟩ := sends_opened htx calls
  refine ⟨emitted, hsends, fun batches hemitted hair world hworld rcalls hbuf => ?_⟩
  obtain ⟨run, taken, hrun, hspec⟩ := WfbRx.recvs_spec (WfbRx.opened_inv hrx).1 world rcalls
  have hframes := received_batches hrx hfilter hair (hemitted ▸ hwf) hworld hspec
    fun c hc => hbuf c ((WfbRx.recvs_calls hrun).subset hc)
  have hdelivers := fun hroom => run_delivers hrx hfilter hair (hemitted ▸ hwf) hworld hroom hbuf
    hrun (hemitted ▸ contents_emitted hcalls rcfg.streamId)
  refine ⟨run, hrun, hframes, fun hroom => (hdelivers hroom).2.1,
    fun hroom timeout hatt htimeout henough => ?_⟩
  exact (hdelivers hroom).2.2 timeout hatt htimeout (by rwa [List.length_map])

/-- A packet that was captured whole. -/
def wholePacket (bytes : List UInt8) (h : bytes.length ≤ 65535) : CapturedPacket :=
  ⟨bytes.length, bytes, le_rfl, h⟩

@[simp] lemma bytes_wholePacket (bytes : List UInt8) (h : bytes.length ≤ 65535) :
    (wholePacket bytes h).bytes = bytes := List.take_length

lemma length_twoFrames (i : ℕ) : (bareHeader ++ twoFrames.getD i []).length ≤ 65535 :=
  match i with
  | 0 | 1 => by decide
  | _ + 2 => show bareHeader.length ≤ 65535 by decide

/-- The frame of one of the two handles, captured whole. -/
def framePacket (i : ℕ) : CapturedPacket :=
  wholePacket (bareHeader ++ twoFrames.getD i []) (length_twoFrames i)

/-- The packets of two batches: the frames of the two handles, and one that is too short. -/
def twoBatches : List (List CapturedPacket) :=
  [[framePacket 0], [wholePacket [0] (by decide), framePacket 1]]

/-- What the receiver is handed out of them. -/
def twoDrains : List (List CapturedPacket) :=
  twoBatches.map fun b => b.filter fun p => eval WfbRx.onWlan0.pcap.filterExp p.bytes

/-- The first drain finds nothing on the stream, and the call goes on. -/
lemma attended_twoDrains :
    WfbRx.onWlan0.Attended 1000000 none ⟨[0, 1, 2], [.ready, .ready], twoDrains⟩ := by
  have hfirst : WfbRx.onWlan0.acceptedFrames (twoDrains.getD 0 []) = [] := by decide +kernel
  have hsecond : WfbRx.onWlan0.acceptedFrames (twoDrains.getD 1 []) ≠ [] := by decide +kernel
  exact .starts (.rejected (by decide) hfirst (.accepted (by decide) hsecond .finished))

theorem onWlan0_received : ∃ run,
    WfbRx.recvs WfbRx.onWlan0 ⟨[0, 1, 2], [.ready, .ready], twoDrains⟩
        [⟨List.replicate 4013 0, 1000000⟩] = .ok run ∧
      run.received = [([0x68, 0x69], 7, 0)] ∧ run.rx.queue = [] := by
  obtain ⟨emitted, hsends, hdelivered⟩ := sends_received
    (fun b => WfbTx.returns_open.mpr ⟨accepts_twoHandles b, 3, rfl⟩) twoCalls
    WfbRx.opened_onWlan0 implements_eval
  obtain ⟨e₁, e₂, rfl, h₁, h₂, hc₁, hc₂⟩ : ∃ e₁ e₂ : Emission Bool, emitted = [e₁, e₂] ∧
      e₁.frame.drop 13 = twoFrames.getD 0 [] ∧ e₂.frame.drop 13 = twoFrames.getD 1 [] ∧
      e₁.call = twoCalls[0] ∧ e₂.call = twoCalls[1] := by
    cases hsends
    exact ⟨_, _, rfl, by decide +kernel, by decide +kernel, rfl, rfl⟩
  have hair : ∀ b ∈ [(⟨[e₁], twoBatches[0]⟩ : Batch Bool), ⟨[e₂], twoBatches[1]⟩],
      OnAir WfbRx.onWlan0 b.emitted (b.packets.map CapturedPacket.bytes) := by
    simp only [List.mem_cons, List.not_mem_nil, or_false, forall_eq_or_imp, forall_eq]
    constructor
    · have hcaptured : Captured e₁.frame bareHeader [] _ (framePacket 0).bytes :=
        ⟨by rw [framePacket, bytes_wholePacket, h₁, List.append_nil], rfl, rfl, by decide,
          by decide, rfl⟩
      exact .frame hcaptured .nil
    · have hcaptured : Captured e₂.frame bareHeader [] _ (framePacket 1).bytes :=
        ⟨by rw [framePacket, bytes_wholePacket, h₂, List.append_nil], rfl, rfl, by decide,
          by decide, rfl⟩
      exact .other rfl (.frame hcaptured .nil)
  obtain ⟨run, hrun, -, hall, hattended⟩ := hdelivered _ rfl hair
    ⟨[0, 1, 2], [.ready, .ready], twoDrains⟩ rfl
    [⟨List.replicate 4013 0, 1000000⟩] (by
      intro c hc
      rw [List.mem_singleton.mp hc, List.length_replicate]
      exact le_rfl)
  have hroom : ∀ b ∈ [(⟨[e₁], twoBatches[0]⟩ : Batch Bool), ⟨[e₂], twoBatches[1]⟩],
      (b.contents twoHandles WfbRx.wlan0.streamId).length ≤ WfbRx.onWlan0.ringSize := by
    simp only [List.mem_cons, List.not_mem_nil, or_false, forall_eq_or_imp, forall_eq]
    have hone : 1 ≤ WfbRx.onWlan0.ringSize := by decide
    exact ⟨(Batch.length_contents_le _ _ _).trans hone, (Batch.length_contents_le _ _ _).trans hone⟩
  have hreceived := hattended hroom 1000000 attended_twoDrains
    (fun c hc => by rw [List.mem_singleton.mp hc]) (by decide)
  have hqueue := hall hroom
  rw [← hreceived, List.append_assoc, List.append_right_eq_self] at hqueue
  exact ⟨run, hrun, hreceived, List.map_eq_nil_iff.mp (List.append_eq_nil_iff.mp hqueue).1⟩

end WfbRs
