import WfbRs.Rx.Waiting

/-!
# A receiver that is attended

What calls of `recv` have still to hand over, and a world in which every poll finds the capture
ready before the deadline of its call.  In such a world each call hands over a frame, as long as
there is one.
-/

namespace WfbRs

open Rust RingBuffer

namespace WfbRx

/-! ### What is ahead -/

/-- The frames that calls have still to hand over: those in the ring, and those that drains will
keep. -/
def ahead (rx : WfbRx) (world : World) : List Frame := rx.queue ++ world.captures.flatMap rx.kept

/-- A call takes its frame from the front. -/
lemma RecvSpec.ahead {rx : WfbRx} {buf : List UInt8} {world : World} {out : RecvOut}
    (h : RecvSpec rx buf world out) : ∃ f, Answer rx buf world out f ∧
      rx.ahead world = f.toList ++ out.rx.ahead out.world := by
  obtain ⟨f, hanswer, hframes⟩ := h.frames
  refine ⟨f, hanswer, ?_⟩
  rw [WfbRx.ahead, WfbRx.ahead, h.captures, List.flatMap_append, List.flatMap_map,
    ← List.append_assoc, ← hframes, h.config.kept, List.append_assoc]

lemma Answer.isSome {rx : WfbRx} {buf : List UInt8} {world : World} {out : RecvOut}
    {f : Option Frame} (h : Answer rx buf world out f) (hframe : out.ReturnsFrame) : f.isSome := by
  obtain ⟨n, rxMeta, hresult⟩ := hframe
  cases h with
  | frame f => rfl
  | timeout hnone | failed _ hnone | running hnone => simp [hresult] at hnone
  | rejected _ heq => simp [heq] at hresult

/-! ### Worlds -/

/-- No call with this timeout comes to its deadline: it reads the clock when it starts and in front
of each poll, and the polls find the capture ready or are interrupted.  The call is over behind a
batch with an acceptable packet.  Its first reading is `call`, if one has started. -/
inductive Attended (rx : WfbRx) (timeout : ℕ) : Option ℕ → World → Prop
  /-- Nothing more will be captured. -/
  | finished {call : Option ℕ} {clock : List ℕ} {polls : List PollOutcome} :
      Attended rx timeout call ⟨clock, polls, []⟩
  | starts {start : ℕ} {clock : List ℕ} {polls : List PollOutcome}
      {captures : List (List CapturedPacket)}
      (rest : Attended rx timeout (some start) ⟨clock, polls, captures⟩) :
      Attended rx timeout none ⟨start :: clock, polls, captures⟩
  | interrupted {start now : ℕ} {clock : List ℕ} {polls : List PollOutcome}
      {captures : List (List CapturedPacket)} (early : now - start < timeout)
      (rest : Attended rx timeout (some start) ⟨clock, polls, captures⟩) :
      Attended rx timeout (some start) ⟨now :: clock, .interrupted :: polls, captures⟩
  | rejected {start now : ℕ} {clock : List ℕ} {polls : List PollOutcome}
      {batch : List CapturedPacket} {captures : List (List CapturedPacket)}
      (early : now - start < timeout) (accepted : rx.acceptedFrames batch = [])
      (rest : Attended rx timeout (some start) ⟨clock, polls, captures⟩) :
      Attended rx timeout (some start) ⟨now :: clock, .ready :: polls, batch :: captures⟩
  | accepted {start now : ℕ} {clock : List ℕ} {polls : List PollOutcome}
      {batch : List CapturedPacket} {captures : List (List CapturedPacket)}
      (early : now - start < timeout) (accepted : rx.acceptedFrames batch ≠ [])
      (rest : Attended rx timeout none ⟨clock, polls, captures⟩) :
      Attended rx timeout (some start) ⟨now :: clock, .ready :: polls, batch :: captures⟩

section

variable {rx rx' : WfbRx} {timeout timeout' : ℕ} {call : Option ℕ} {world : World} {buf : List UInt8}

lemma Attended.congr (h : Attended rx timeout call world) (hcfg : SameConfig rx rx') :
    Attended rx' timeout call world := by
  induction h with
  | finished => exact .finished
  | starts _ ih => exact .starts ih
  | interrupted early _ ih => exact .interrupted early ih
  | rejected early hnone _ ih => exact .rejected early (by rwa [hcfg.acceptedFrames]) ih
  | accepted early hsome _ ih => exact .accepted early (by rwa [hcfg.acceptedFrames]) ih

/-- A round with a frame in the ring leaves the world alone. -/
lemma recvRound_returns (buf : List UInt8) (timeout start : ℕ) {s : RecvState}
    (hinv : RingInv s.rx) (hcount : 0 < s.rx.ringCount) :
    ∃ out, recvRound buf timeout start s = .ok (.ret out) ∧ out.ReturnsFrame ∧
      out.world = s.world := by
  obtain ⟨f, -, -, hpop⟩ := popOne_eq hinv hcount buf (some default)
  refine ⟨_, by rw [recvRound, if_pos hcount, RecvState.returnFrame, hpop]; rfl, ?_, rfl⟩
  exact ⟨_, _, rfl⟩

/-- A poll in time that is ready is followed by a drain. -/
lemma recvRound_drains (buf : List UInt8) (hinv : RingInv rx) (hcount : rx.ringCount = 0)
    {start now : ℕ} (hlt : now - start < timeout) (clock : List ℕ) (polls : List PollOutcome)
    (batch : List CapturedPacket) (captures : List (List CapturedPacket)) (polled : List PollCall)
    (drained : List Drain) : ∃ s', recvRound buf timeout start
        ⟨rx, ⟨now :: clock, .ready :: polls, batch :: captures⟩, polled, drained⟩ = .ok (.next s') ∧
      s'.world = ⟨clock, polls, captures⟩ ∧ RingInv s'.rx ∧ SameConfig rx s'.rx ∧
      s'.rx.queue = rx.kept batch := by
  obtain ⟨rx', hdrain, hinv', hcfg, hq⟩ := drainPcapNonblock_empty hinv (queue_eq_nil hcount) batch
  refine ⟨⟨rx', ⟨clock, polls, captures⟩,
    polled ++ [⟨now, min ((timeout - (now - start)) / 1000000) (2 ^ 31 - 1), .ready⟩],
    drained ++ [⟨rx.ringCount, batch⟩]⟩, ?_, rfl, hinv', hcfg, hq⟩
  simp only [recvRound, hcount, gt_iff_lt, lt_irrefl, if_false, ge_iff_le, Nat.not_le_of_lt hlt,
    usub_ok hlt.le, ok_bind, hdrain]
  rfl

/-- The loop of a call that comes to a frame. -/
lemma loop_attended (h : Attended rx timeout call world) {start : ℕ} (hcall : call = some start)
    {rx' : WfbRx} (hcfg : SameConfig rx rx') (hinv : RingInv rx') (hcount : rx'.ringCount = 0)
    (hleft : world.captures.flatMap rx.kept ≠ []) (hle : timeout ≤ timeout') (buf : List UInt8)
    (polled : List PollCall) (drained : List Drain) {n : ℕ} (hn : world.clock.length < n) : ∃ out,
      loopN (recvRound buf timeout' start) n ⟨rx', world, polled, drained⟩ = .ok (.inr out) ∧
        out.ReturnsFrame ∧ Attended rx timeout none out.world := by
  induction h generalizing rx' polled drained n with
  | finished => exact absurd rfl hleft
  | starts _ _ => cases hcall
  | interrupted early _ ih =>
      obtain rfl := Option.some.inj hcall
      obtain ⟨n, rfl⟩ : ∃ k, n = k + 1 := Nat.exists_eq_add_of_le' (Nat.one_le_of_lt hn)
      rw [loopN_next (recvRound_interrupted buf _ _ _ polled drained hcount
        (early.trans_le hle))]
      exact ih hcall hcfg hinv hcount hleft _ _ (Nat.lt_of_succ_lt_succ hn)
  | @rejected _ now clock polls batch captures early hnone rest ih =>
      obtain rfl := Option.some.inj hcall
      obtain ⟨n, rfl⟩ : ∃ k, n = k + 1 := Nat.exists_eq_add_of_le' (Nat.one_le_of_lt hn)
      obtain ⟨⟨rx'', _, polled', drained'⟩, hround, rfl, hinv', hcfg', hq⟩ := recvRound_drains buf
        hinv hcount (early.trans_le hle) clock polls batch captures polled drained
      -- the drain has kept nothing
      have hkept : rx.kept batch = [] := by rw [kept, hnone, List.take_nil]
      have hcount' : rx''.ringCount = 0 := by
        rw [← length_queue, hq, hcfg.kept, hkept]
        rfl
      rw [List.flatMap_cons, hkept, List.nil_append] at hleft
      rw [loopN_next hround]
      exact ih hcall (hcfg.trans hcfg') hinv' hcount' hleft _ _ (Nat.lt_of_succ_lt_succ hn)
  | @accepted _ now clock polls batch captures early hsome rest _ =>
      obtain rfl := Option.some.inj hcall
      obtain ⟨n, rfl⟩ : ∃ k, n = k + 2 := by
        refine Nat.exists_eq_add_of_le' ?_
        simp only [List.length_cons] at hn
        omega
      obtain ⟨⟨rx'', _, polled', drained'⟩, hround, rfl, hinv', hcfg', hq⟩ := recvRound_drains buf
        hinv hcount (early.trans_le hle) clock polls batch captures polled drained
      have hpos : 0 < rx''.ringCount := by
        have hlen := List.length_pos_iff.mpr hsome
        have hsize := hinv.size_pos
        rw [hcfg.ringSize] at hsize
        rw [← length_queue, hq, hcfg.kept, kept, List.length_take]
        omega
      obtain ⟨out, hout, hframe, hworld⟩ := recvRound_returns buf timeout' _
        (s := ⟨rx'', ⟨clock, polls, captures⟩, polled', drained'⟩) hinv' hpos
      rw [loopN_next hround, loopN_ret hout]
      exact ⟨out, rfl, hframe, hworld ▸ rest⟩

/-- A call that is attended returns a frame, if there is one. -/
lemma recv_attended (h : Attended rx timeout none world) (hinv : RingInv rx) (hbuf : buf ≠ [])
    (hle : timeout ≤ timeout') (hleft : rx.ahead world ≠ []) :
    ∃ out, recv rx buf timeout' world = .ok out ∧
      out.ReturnsFrame ∧ Attended rx timeout none out.world := by
  rcases Nat.eq_zero_or_pos rx.ringCount with hcount | hcount
  · rw [ahead, queue_eq_nil hcount, List.nil_append] at hleft
    cases h with
    | finished => exact absurd rfl hleft
    | @starts start clock polls captures rest =>
        obtain ⟨out, hloop, hframe, hatt⟩ := loop_attended rest rfl (SameConfig.refl rx) hinv hcount
          hleft hle buf [] [] (Nat.lt_succ_self clock.length)
        refine ⟨out, ?_, hframe, hatt⟩
        simp only [recv, if_neg hbuf, hcount, gt_iff_lt, lt_irrefl, if_false, hloop, ok_bind,
          pure_eq_ok]
  · obtain ⟨f, -, -, hpop⟩ := popOne_eq hinv hcount buf (some default)
    refine ⟨_, by simp only [recv, if_neg hbuf, if_pos hcount, RecvState.returnFrame, hpop, ok_bind,
      pure_eq_ok]; rfl, ⟨_, _, rfl⟩, h⟩

/-- It returns the first of those ahead, and the next call is attended as well. -/
lemma recv_takes (h : Attended rx timeout none world) (hinv : RingInv rx) (hbuf : buf ≠ [])
    (hle : timeout ≤ timeout') {f : Frame} {fs : List Frame} (hahead : rx.ahead world = f :: fs) :
    ∃ out, recv rx buf timeout' world = .ok out ∧ Answer rx buf world out (some f) ∧
      RecvSpec rx buf world out ∧ out.rx.ahead out.world = fs ∧
      Attended out.rx timeout none out.world := by
  obtain ⟨out, hout, hframe, hatt⟩ := recv_attended h hinv hbuf hle (by simp [hahead])
  obtain ⟨out', hout', hspec⟩ := recv_spec hinv buf timeout' world
  obtain rfl := Except.ok.inj (hout.symm.trans hout')
  obtain ⟨f', hanswer, hfront⟩ := hspec.ahead
  obtain ⟨g, rfl⟩ := Option.isSome_iff_exists.mp (hanswer.isSome hframe)
  obtain ⟨rfl, rfl⟩ := List.cons.inj (hahead.symm.trans hfront)
  exact ⟨out, hout, hanswer, hspec, rfl, hatt.congr hspec.config⟩

end

end WfbRx

end WfbRs
