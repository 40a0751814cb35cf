import WfbRs.Rx.Recv

/-!
# Runs of a receiver

`Reachable` is every receiver that packets of any bytes and calls of `recv` reach from an
opened one.  Every reachable receiver keeps the ring invariant, so its parser is exactly its
grammar and no step of it panics.  `recvs` is a sequence of calls from one thread; over a
whole such run the frames returned are the frames kept by the drains, in order.
-/

namespace WfbRs

open Rust Descriptor RingBuffer

namespace WfbRx

/-- The receivers of any run: opened, given packets, and asked for frames. -/
inductive Reachable : WfbRx → Prop
  | opened {cfg : WfbRxConfig} {rx : WfbRx} (h : (WfbRx.open cfg).Returns (.ok rx)) : Reachable rx
  | packet {rx rx' : WfbRx} (h : Reachable rx) (pkt : List UInt8)
      (hstep : parseAndEnqueueOnePacket rx pkt = .ok rx') : Reachable rx'
  | recv {rx : WfbRx} {out : RecvOut} (h : Reachable rx) (buf : List UInt8) (timeout : ℕ)
      (world : World) (hstep : recv rx buf timeout world = .ok out) : Reachable out.rx

lemma opened_inv {cfg : WfbRxConfig} {rx : WfbRx} (h : (WfbRx.open cfg).Returns (.ok rx)) :
    RingInv rx ∧ rx.queue = [] := by
  obtain ⟨_, _, fd, rfl⟩ := returns_open.mp h
  exact ⟨fresh_inv _ _, rfl⟩

/-- A packet that is processed without a fault has a radiotap result. -/
lemma parse_of_processed {rx rx' : WfbRx} {pkt : List UInt8}
    (h : parseAndEnqueueOnePacket rx pkt = .ok rx') : ∃ o, radiotapMetaFromPacket pkt = .ok o := by
  obtain ⟨o, ho, _⟩ := bind_eq_ok.mp h
  exact ⟨o, ho⟩

lemma received_of_processed {rx rx' : WfbRx} (hinv : RingInv rx) {pkt : List UInt8}
    (h : parseAndEnqueueOnePacket rx pkt = .ok rx') : rx' = received rx pkt := by
  obtain ⟨o, ho⟩ := parse_of_processed h
  rw [parseAndEnqueueOnePacket_eq hinv ho] at h
  exact (Except.ok.inj h).symm

/-- Every reachable receiver keeps the ring invariant. -/
lemma Reachable.inv {rx : WfbRx} (h : Reachable rx) : RingInv rx := by
  induction h with
  | opened h => exact (opened_inv h).1
  | packet _ pkt hstep ih =>
      rw [received_of_processed ih hstep]
      exact (received_spec ih pkt).1
  | recv _ buf timeout world hstep ih =>
      obtain ⟨out, hout, hspec⟩ := recv_spec ih buf timeout world
      rw [hstep] at hout
      obtain rfl := Except.ok.inj hout
      exact hspec.inv

/-! ### A receiver and a packet -/

/-- Stream 1 on `wlan0`, with room for four frames. -/
def wlan0 : WfbRxConfig := ⟨"wlan0", 1, false, 4⟩

def onWlan0 : WfbRx := fresh wlan0 ⟨3, filterExp 1⟩

lemma opened_onWlan0 : (WfbRx.open wlan0).Returns (.ok onWlan0) :=
  returns_open.mpr ⟨by decide, by decide, 3, rfl⟩

/-- A packet with a bare radiotap header and a payload of two bytes. -/
def heard : List UInt8 :=
  [0, 0, 8, 0, 0, 0, 0, 0] ++ List.replicate 24 0 ++ [0, 0, 0, 0, 7, 0, 2, 0] ++ [0x68, 0x69]

def heardPacket : CapturedPacket := ⟨42, heard, by decide, by decide⟩

/-! ### Exact acceptance -/

/-- The entry that a packet with radiotap data `m` makes. -/
structure EntryOf (pkt : List UInt8) (m : RadiotapMeta) (f : Frame) : Prop where
  payload : f.payload = (pkt.drop (m.radiotapLen + 32)).take (declaredPayloadLen pkt m.radiotapLen)
  /-- The payload ends before the frame check sequence. -/
  inside : m.radiotapLen + 32 + declaredPayloadLen pkt m.radiotapLen ≤ effectiveLen pkt m
  /-- Its header encodes back to the bytes of the packet. -/
  header : WfbFrameHeader.encode
      ⟨0, f.rxMeta.seq, UInt16.ofNat (declaredPayloadLen pkt m.radiotapLen), f.rxMeta.flags⟩ =
    .ok ((pkt.drop (m.radiotapLen + 24)).take 8)
  rest : f.rxMeta = m.toRxMeta f.rxMeta.seq f.rxMeta.flags

lemma entryOf_frameOf {ignore : Bool} {maxPayload : ℕ} {pkt : List UInt8} {m : RadiotapMeta}
    (h : PassesChecks ignore maxPayload pkt m) : EntryOf pkt m (frameOf pkt m) := by
  have hlong : m.radiotapLen + iee80211HeaderLen + 8 ≤ pkt.length :=
    h.long.trans (effectiveLen_le pkt m)
  obtain ⟨sh, -, hbytes, hhead, hlen, hframe⟩ := header_of_length hlong
  have hver : sh.version = 0 := Option.some.inj (hhead.symm.trans h.version)
  have hfits := h.long_le
  have havail := h.avail
  refine ⟨rfl, by omega, ?_, rfl⟩
  · have hsh : (⟨0, (frameOf pkt m).rxMeta.seq,
        UInt16.ofNat (declaredPayloadLen pkt m.radiotapLen), (frameOf pkt m).rxMeta.flags⟩ :
          WfbFrameHeader) = sh := by
      rw [hframe, hlen, UInt16.ofNat_toNat, ← hver]
      rfl
    rw [hsh, WfbFrameHeader.encode_eq, hbytes]
    rfl

/-- A packet is accepted exactly when its radiotap header parses and the checks hold. -/
lemma acceptedFrame_eq_some {ignore : Bool} {maxPayload : ℕ} {pkt : List UInt8} {f : Frame} :
    acceptedFrame ignore maxPayload pkt = some f ↔
      ∃ m, radiotapMetaFromPacket pkt = .ok (some m) ∧ PassesChecks ignore maxPayload pkt m ∧
        f = frameOf pkt m := by
  rw [acceptedFrame]
  constructor
  · intro h
    split at h
    · rename_i m hm
      split at h
      · rename_i hchecks
        exact ⟨m, hm, hchecks, (Option.some.inj h).symm⟩
      · simp at h
    · simp at h
  · rintro ⟨m, hm, hchecks, rfl⟩
    simp only [hm, if_pos hchecks]

/-- **Exact acceptance.** A packet is enqueued if and only if its radiotap header parses, the
checks hold and the ring has room; it then makes one entry, its own, and otherwise the receiver
stays as it was. -/
theorem parseAndEnqueueOnePacket_accepts {rx : WfbRx} (hr : Reachable rx) (pkt : List UInt8) :
    ((∃ rx' f, parseAndEnqueueOnePacket rx pkt = .ok rx' ∧ rx'.queue = rx.queue ++ [f]) ↔
      ∃ m, radiotapMetaFromPacket pkt = .ok (some m) ∧
        PassesChecks rx.ignoreSelfInjected rx.maxPayload pkt m ∧ rx.ringCount < rx.ringSize) ∧
    (∀ m, radiotapMetaFromPacket pkt = .ok (some m) →
      PassesChecks rx.ignoreSelfInjected rx.maxPayload pkt m → rx.ringCount < rx.ringSize →
        ∃ rx' f, parseAndEnqueueOnePacket rx pkt = .ok rx' ∧ rx'.queue = rx.queue ++ [f] ∧
          rx'.ringCount = rx.ringCount + 1 ∧ EntryOf pkt m f) ∧
    ((¬ ∃ m, radiotapMetaFromPacket pkt = .ok (some m) ∧
        PassesChecks rx.ignoreSelfInjected rx.maxPayload pkt m ∧ rx.ringCount < rx.ringSize) →
      ∀ rx', parseAndEnqueueOnePacket rx pkt = .ok rx' → rx' = rx) := by
  have hinv := hr.inv
  have hyes : ∀ m, radiotapMetaFromPacket pkt = .ok (some m) →
      PassesChecks rx.ignoreSelfInjected rx.maxPayload pkt m → rx.ringCount < rx.ringSize →
        ∃ rx' f, parseAndEnqueueOnePacket rx pkt = .ok rx' ∧ rx'.queue = rx.queue ++ [f] ∧
          rx'.ringCount = rx.ringCount + 1 ∧ EntryOf pkt m f := by
    intro m hm hchecks hroom
    have hacc : acceptedFrame rx.ignoreSelfInjected rx.maxPayload pkt = some (frameOf pkt m) :=
      acceptedFrame_eq_some.mpr ⟨m, hm, hchecks, rfl⟩
    have hlen := acceptedFrame_length hacc
    refine ⟨_, frameOf pkt m, parseAndEnqueueOnePacket_eq hinv hm, ?_⟩
    simp only [hacc, if_pos hroom]
    exact ⟨queue_pushed hinv hlen hroom, rfl, entryOf_frameOf hchecks⟩
  have hno : (¬ ∃ m, radiotapMetaFromPacket pkt = .ok (some m) ∧
      PassesChecks rx.ignoreSelfInjected rx.maxPayload pkt m ∧ rx.ringCount < rx.ringSize) →
      ∀ rx', parseAndEnqueueOnePacket rx pkt = .ok rx' → rx' = rx := by
    intro hnone rx' hstep
    rw [received_of_processed hinv hstep, received]
    cases hacc : acceptedFrame rx.ignoreSelfInjected rx.maxPayload pkt with
    | none => rfl
    | some f =>
        obtain ⟨m, hm, hchecks, -⟩ := acceptedFrame_eq_some.mp hacc
        exact if_neg fun hroom => hnone ⟨m, hm, hchecks, hroom⟩
  refine ⟨⟨?_, ?_⟩, hyes, hno⟩
  · rintro ⟨rx', f, hstep, hq⟩
    by_contra hnone
    rw [hno hnone rx' hstep] at hq
    simpa using congrArg List.length hq
  · rintro ⟨m, hm, hchecks, hroom⟩
    obtain ⟨rx', f, hstep, hq, -⟩ := hyes m hm hchecks hroom
    exact ⟨rx', f, hstep, hq⟩

theorem heard_accepted : ∃ rx' f, parseAndEnqueueOnePacket onWlan0 heard = .ok rx' ∧
    rx'.queue = [f] ∧ f.payload = [0x68, 0x69] := by
  obtain ⟨m, hm, hchecks, hpayload⟩ : ∃ m, radiotapMetaFromPacket heard = .ok (some m) ∧
      PassesChecks false 4013 heard m ∧
      (heard.drop (m.radiotapLen + 32)).take (declaredPayloadLen heard m.radiotapLen) =
        [0x68, 0x69] := ⟨_, rfl, by decide +kernel, by decide +kernel⟩
  have haccepts := parseAndEnqueueOnePacket_accepts (.opened opened_onWlan0) heard
  obtain ⟨rx', f, hstep, hq, -, hentry⟩ := haccepts.2.1 m hm hchecks (by decide)
  exact ⟨rx', f, hstep, hq, hentry.payload.trans hpayload⟩

/-! ### Panic freedom -/

/-- **Panic freedom.** No captured packet and no call of `recv` makes a reachable receiver panic,
and the parser's loops end. -/
theorem reachable_steps_ok {rx : WfbRx} (hr : Reachable rx) :
    (∀ p : CapturedPacket, ∃ rx', parseAndEnqueueOnePacket rx p.bytes = .ok rx' ∧ Reachable rx') ∧
    ∀ (buf : List UInt8) (timeout : ℕ) (world : World),
      ∃ out, recv rx buf timeout world = .ok out ∧ Reachable out.rx := by
  constructor
  · intro p
    have hstep := parseAndEnqueueOnePacket_bytes hr.inv p
    exact ⟨_, hstep, hr.packet p.bytes hstep⟩
  · intro buf timeout world
    obtain ⟨out, hout, -⟩ := recv_spec hr.inv buf timeout world
    exact ⟨out, hout, hr.recv buf timeout world hout⟩

theorem onWlan0_steps_ok :
    (∃ rx', parseAndEnqueueOnePacket onWlan0 heardPacket.bytes = .ok rx' ∧ Reachable rx') ∧
      ∃ out, recv onWlan0 [0, 0] 1000000 ⟨[0, 5], [.ready], [[heardPacket]]⟩ = .ok out ∧
        Reachable out.rx :=
  ⟨(reachable_steps_ok (.opened opened_onWlan0)).1 heardPacket,
    (reachable_steps_ok (.opened opened_onWlan0)).2 _ _ _⟩

/-! ### Calls in sequence -/

/-- The arguments of a call. -/
structure RecvCall where
  buf : List UInt8
  timeout : ℕ

/-- A call with the state it started in and what it left. -/
structure RecvStep where
  rx : WfbRx
  call : RecvCall
  world : World
  out : RecvOut

/-- A run of calls: its steps, and the state behind the last one. -/
structure RecvRun where
  steps : List RecvStep
  rx : WfbRx
  world : World

/-- Calls of `recv`, one after the other.  A call that still runs is the last one. -/
def recvs (rx : WfbRx) (world : World) : List RecvCall → Checked RecvRun
  | [] => return ⟨[], rx, world⟩
  | call :: calls => do
      let out ← recv rx call.buf call.timeout world
      if out.result = none then return ⟨[⟨rx, call, world, out⟩], out.rx, out.world⟩
      let run ← recvs out.rx out.world calls
      return { run with steps := ⟨rx, call, world, out⟩ :: run.steps }

/-- The drains of a run. -/
def RecvRun.drained (run : RecvRun) : List Drain := run.steps.flatMap fun s => s.out.drained

lemma RecvRun.drained_cons (run : RecvRun) (s : RecvStep) :
    RecvRun.drained { run with steps := s :: run.steps } = s.out.drained ++ run.drained :=
  List.flatMap_cons

/-- What a run of calls does, given the frame that each call took from the ring. -/
structure RunSpec (rx : WfbRx) (world : World) (run : RecvRun) (taken : List (Option Frame)) :
    Prop where
  config : SameConfig rx run.rx
  /-- Each call is answered by the frame it took, and by a timeout or an error only when nothing
  is queued. -/
  answers : List.Forall₂ (fun s f => Answer s.rx s.call.buf s.world s.out f) run.steps taken
  /-- The frames returned and the frames left are the ones queued before and the ones kept by the
  drains. -/
  frames : taken.reduceOption ++ run.rx.queue =
    rx.queue ++ run.drained.flatMap fun d => rx.kept d.batch
  /-- The drains take the batches of the world in order. -/
  captures : world.captures = run.drained.map Drain.batch ++ run.world.captures
  /-- Every drain starts with an empty ring. -/
  empty : ∀ d ∈ run.drained, d.queued = 0

/-- One call in front of a run. -/
lemma RunSpec.cons {rx : WfbRx} {world : World} {call : RecvCall} {out : RecvOut}
    {f : Option Frame} {run : RecvRun} {taken : List (Option Frame)}
    (hspec : RecvSpec rx call.buf world out) (hanswer : Answer rx call.buf world out f)
    (hframes : f.toList ++ out.rx.queue = rx.queue ++ out.drained.flatMap fun d => rx.kept d.batch)
    (hrun : RunSpec out.rx out.world run taken) :
    RunSpec rx world { run with steps := ⟨rx, call, world, out⟩ :: run.steps } (f :: taken) where
  config := hspec.config.trans hrun.config
  answers := .cons hanswer hrun.answers
  frames := by
    have htaken : (f :: taken).reduceOption = f.toList ++ taken.reduceOption := by
      cases f <;> rfl
    rw [htaken, List.append_assoc, hrun.frames, ← List.append_assoc, hframes, hspec.config.kept,
      RecvRun.drained_cons, List.flatMap_append, List.append_assoc]
  captures := by
    rw [hspec.captures, hrun.captures, RecvRun.drained_cons, List.map_append, List.append_assoc]
  empty := by
    intro d hd
    rw [RecvRun.drained_cons] at hd
    rcases List.mem_append.mp hd with hd | hd
    · exact hspec.empty d hd
    · exact hrun.empty d hd

lemma RunSpec.nil (rx : WfbRx) (world : World) : RunSpec rx world ⟨[], rx, world⟩ [] where
  config := SameConfig.refl rx
  answers := .nil
  frames := by simp [RecvRun.drained]
  captures := rfl
  empty := by simp [RecvRun.drained]

lemma recvs_spec {rx : WfbRx} (hinv : RingInv rx) (world : World) (calls : List RecvCall) :
    ∃ run taken, recvs rx world calls = .ok run ∧ RunSpec rx world run taken := by
  induction calls generalizing rx world with
  | nil => exact ⟨_, _, rfl, RunSpec.nil rx world⟩
  | cons call calls ih =>
      obtain ⟨out, hout, hspec⟩ := recv_spec hinv call.buf call.timeout world
      obtain ⟨f, hanswer, hframes⟩ := hspec.frames
      -- a call that still runs is the last one
      by_cases hrunning : out.result = none
      · refine ⟨_, _, ?_, RunSpec.cons hspec hanswer hframes (RunSpec.nil out.rx out.world)⟩
        simp only [recvs, hout, ok_bind, if_pos hrunning, pure_eq_ok]
      · obtain ⟨run, taken, hrun, hruns⟩ := ih hspec.inv out.world
        refine ⟨_, _, ?_, RunSpec.cons hspec hanswer hframes hruns⟩
        simp only [recvs, hout, ok_bind, if_neg hrunning, hrun, pure_eq_ok]

/-- **Delivery.** In every run of calls on a freshly opened receiver, the frames returned,
followed by the frames still queued, are the frames that the drains kept: of each batch, the
first `ringSize` that pass the checks. -/
theorem recvs_delivery {cfg : WfbRxConfig} {rx : WfbRx} (h : (WfbRx.open cfg).Returns (.ok rx))
    (world : World) (calls : List RecvCall) :
    ∃ run taken, recvs rx world calls = .ok run ∧ RunSpec rx world run taken ∧
      taken.reduceOption ++ run.rx.queue = run.drained.flatMap fun d =>
        (rx.acceptedFrames d.batch).take (min (rx.acceptedFrames d.batch).length rx.ringSize) := by
  obtain ⟨hinv, hqueue⟩ := opened_inv h
  obtain ⟨run, taken, hrun, hspec⟩ := recvs_spec hinv world calls
  refine ⟨run, taken, hrun, hspec, ?_⟩
  have htake : ∀ batch, (rx.acceptedFrames batch).take
      (min (rx.acceptedFrames batch).length rx.ringSize) = rx.kept batch := by
    intro batch
    rw [kept, List.take_eq_take_iff]
    omega
  rw [hspec.frames, hqueue, List.nil_append]
  simp only [htake]

theorem onWlan0_delivery : ∃ run taken,
    recvs onWlan0 ⟨[0, 5], [.ready], [[heardPacket]]⟩ [⟨[0, 0], 1000000⟩, ⟨[0], 0⟩] = .ok run ∧
      RunSpec onWlan0 ⟨[0, 5], [.ready], [[heardPacket]]⟩ run taken ∧
      taken.reduceOption ++ run.rx.queue = run.drained.flatMap fun d =>
        (onWlan0.acceptedFrames d.batch).take
          (min (onWlan0.acceptedFrames d.batch).length onWlan0.ringSize) :=
  recvs_delivery opened_onWlan0 _ _

end WfbRx

end WfbRs
