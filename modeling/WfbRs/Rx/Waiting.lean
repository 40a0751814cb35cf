import WfbRs.Ffi
import WfbRs.Rx.Runs

/-!
# A call while packets wait

What `recv` answers when acceptable packets already wait in the capture.  The loop looks at
the clock before it polls, so they are found exactly when the timeout has not passed at the
reading before the first poll that is not interrupted; with a timeout of zero they never are.
-/

namespace WfbRs

open Rust RingBuffer

/-- The call has returned a frame. -/
def RecvOut.ReturnsFrame (out : RecvOut) : Prop :=
  ∃ n rxMeta, out.result = some (.ok (some (n, rxMeta)))

lemma RecvOut.not_returnsFrame {out : RecvOut} (h : out.result = some (.ok none)) :
    ¬ out.ReturnsFrame := by
  rintro ⟨n, rxMeta, hres⟩
  simp [h] at hres

namespace WfbRx

/-- Packets wait, at least one of them acceptable, and every poll that is not interrupted says
so.  The call starts at `start`; `now` is the clock reading before the first such poll. -/
def Waiting (rx : WfbRx) (world : World) (start now : ℕ) : Prop :=
  ∃ readings clock polls pending captures,
    world = ⟨start :: (readings ++ now :: clock),
      List.replicate readings.length .interrupted ++ .ready :: polls, pending :: captures⟩ ∧
    (start :: (readings ++ now :: clock)).Pairwise (· ≤ ·) ∧ rx.acceptedFrames pending ≠ []

lemma RecvState.returnFrame_ok {s : RecvState} (hinv : RingInv s.rx) (hcount : 0 < s.rx.ringCount)
    (buf : List UInt8) : ∃ out, s.returnFrame buf = .ok out ∧ out.ReturnsFrame := by
  obtain ⟨f, -, -, hpop⟩ := popOne_eq hinv hcount buf (some default)
  refine ⟨_, by rw [RecvState.returnFrame, hpop]; rfl, ?_⟩
  exact ⟨_, _, rfl⟩

section Rounds

variable {rx : WfbRx} {timeout start now : ℕ} {pending : List CapturedPacket} (buf : List UInt8)
  (clock : List ℕ) (polls : List PollOutcome) (captures : List (List CapturedPacket))
  (polled : List PollCall) (drained : List Drain)

/-- A round with a frame in the ring returns it. -/
lemma recvRound_queued (timeout start : ℕ) {s : RecvState} (hinv : RingInv s.rx)
    (hcount : 0 < s.rx.ringCount) : ∃ out, recvRound buf timeout start s = .ok (.ret out) ∧ out.ReturnsFrame := by
  obtain ⟨out, hout, hframe⟩ := RecvState.returnFrame_ok hinv hcount buf
  exact ⟨out, by rw [recvRound, if_pos hcount, hout]; rfl, hframe⟩

/-- A round behind the deadline ends the call. -/
lemma recvRound_expired (hcount : rx.ringCount = 0) (hlate : timeout ≤ now - start) :
    ∃ out, recvRound buf timeout start
        ⟨rx, ⟨now :: clock, polls, captures⟩, polled, drained⟩ = .ok (.ret out) ∧
      out.result = some (.ok none) := by
  refine ⟨⟨rx, buf, ⟨clock, polls, captures⟩, polled, drained, some (.ok none)⟩, ?_, rfl⟩
  simp only [recvRound, hcount, gt_iff_lt, lt_irrefl, if_false, ge_iff_le, hlate, if_true]
  rfl

/-- An interrupted poll starts the next round. -/
lemma recvRound_interrupted (hcount : rx.ringCount = 0) (hlt : now - start < timeout) :
    recvRound buf timeout start
        ⟨rx, ⟨now :: clock, .interrupted :: polls, captures⟩, polled, drained⟩ =
      .ok (.next ⟨rx, ⟨clock, polls, captures⟩,
        polled ++ [⟨now, min ((timeout - (now - start)) / 1000000) (2 ^ 31 - 1), .interrupted⟩],
        drained⟩) := by
  simp only [recvRound, hcount, gt_iff_lt, lt_irrefl, if_false, ge_iff_le, Nat.not_le_of_lt hlt,
    usub_ok hlt.le, ok_bind]
  rfl

/-- A poll that finds an acceptable packet leaves a frame in the ring. -/
lemma recvRound_ready (hinv : RingInv rx) (hcount : rx.ringCount = 0)
    (hlt : now - start < timeout) (hpending : rx.acceptedFrames pending ≠ []) :
    ∃ s', recvRound buf timeout start
        ⟨rx, ⟨now :: clock, .ready :: polls, pending :: captures⟩, polled, drained⟩ =
      .ok (.next s') ∧ RingInv s'.rx ∧ 0 < s'.rx.ringCount := by
  obtain ⟨rx', hdrain, hinv', -, hq⟩ := drainPcapNonblock_empty hinv (queue_eq_nil hcount) pending
  refine ⟨⟨rx', ⟨clock, polls, captures⟩,
    polled ++ [⟨now, min ((timeout - (now - start)) / 1000000) (2 ^ 31 - 1), .ready⟩],
    drained ++ [⟨rx.ringCount, pending⟩]⟩, ?_, hinv', ?_⟩
  · simp only [recvRound, hcount, gt_iff_lt, lt_irrefl, if_false, ge_iff_le, Nat.not_le_of_lt hlt,
      usub_ok hlt.le, ok_bind, hdrain]
    rfl
  · have hlen : 0 < (rx.acceptedFrames pending).length := List.length_pos_iff.mpr hpending
    have hsize := hinv.size_pos
    show 0 < rx'.ringCount
    rw [← length_queue, hq, kept, List.length_take]
    omega

/-- The loop over the interrupted polls and the one that is ready. -/
lemma loop_waiting (timeout start : ℕ) (hinv : RingInv rx) (hcount : rx.ringCount = 0)
    (hpending : rx.acceptedFrames pending ≠ []) (readings : List ℕ)
    (hmono : ∀ r ∈ readings, r ≤ now) {n : ℕ} (hn : readings.length + 2 ≤ n) :
    ∃ out, loopN (recvRound buf timeout start) n
        ⟨rx, ⟨readings ++ now :: clock,
          List.replicate readings.length .interrupted ++ .ready :: polls, pending :: captures⟩,
          polled, drained⟩ = .ok (.inr out) ∧
      (now - start < timeout → out.ReturnsFrame) ∧
      (timeout ≤ now - start → out.result = some (.ok none)) := by
  induction readings generalizing n polled with
  | nil =>
      obtain ⟨n, rfl⟩ : ∃ k, n = k + 2 := Nat.exists_eq_add_of_le' hn
      rw [List.nil_append, List.length_nil, List.replicate_zero, List.nil_append]
      rcases Nat.lt_or_ge (now - start) timeout with hlt | hge
      · obtain ⟨s', hround, hinv', hcount'⟩ :=
          recvRound_ready buf clock polls captures polled drained hinv hcount hlt hpending
        obtain ⟨out, hout, hframe⟩ := recvRound_queued buf timeout start hinv' hcount'
        refine ⟨out, ?_, fun _ => hframe, fun h => absurd h (Nat.not_le_of_lt hlt)⟩
        rw [loopN_next hround, loopN_ret hout]
      · obtain ⟨out, hout, hnone⟩ := recvRound_expired buf clock (.ready :: polls)
          (pending :: captures) polled drained hcount hge
        exact ⟨out, loopN_ret hout _, fun h => absurd hge (Nat.not_le_of_lt h), fun _ => hnone⟩
  | cons r readings ih =>
      obtain ⟨n, rfl⟩ : ∃ k, n = k + 1 := Nat.exists_eq_add_of_le' (by omega)
      have hr : r ≤ now := hmono r (by simp)
      rw [List.cons_append, List.length_cons, List.replicate_succ, List.cons_append]
      rcases Nat.lt_or_ge (r - start) timeout with hlt | hge
      · rw [loopN_next (recvRound_interrupted buf _ _ _ polled drained hcount hlt)]
        refine ih _ (fun r' hr' => hmono r' (by simp [hr'])) ?_
        simpa using hn
      · -- the deadline passed before the poll that is ready
        obtain ⟨out, hout, hnone⟩ := recvRound_expired buf (readings ++ now :: clock)
          (.interrupted :: (List.replicate readings.length .interrupted ++ .ready :: polls))
          (pending :: captures) polled drained hcount hge
        exact ⟨out, loopN_ret hout _, fun h => absurd h (by omega), fun _ => hnone⟩

end Rounds

section OneRound

variable {rx : WfbRx} {buf : List UInt8} {timeout start : ℕ} {clock : List ℕ}
  {polls : List PollOutcome} {captures : List (List CapturedPacket)}

/-- A call whose first round ends it. -/
lemma recv_of_round (hcount : rx.ringCount = 0) (hbuf : buf ≠ []) {out : RecvOut}
    (hround : recvRound buf timeout start ⟨rx, ⟨clock, polls, captures⟩, [], []⟩ = .ok (.ret out)) :
    recv rx buf timeout ⟨start :: clock, polls, captures⟩ = .ok out := by
  simp only [recv, if_neg hbuf, hcount, gt_iff_lt, lt_irrefl, if_false, loopN_ret hround, ok_bind,
    pure_eq_ok]

/-- A call whose clock is behind the deadline at once. -/
lemma recv_expired (hcount : rx.ringCount = 0) (hbuf : buf ≠ []) {now : ℕ}
    (hlate : timeout ≤ now - start) : ∃ out,
      recv rx buf timeout ⟨start :: now :: clock, polls, captures⟩ = .ok out ∧
        out.result = some (.ok none) := by
  obtain ⟨out, hround, hnone⟩ := recvRound_expired buf clock polls captures [] [] hcount hlate
  exact ⟨out, recv_of_round hcount hbuf hround, hnone⟩

/-- A call that waits in its first poll. -/
lemma recv_running (hcount : rx.ringCount = 0) (hbuf : buf ≠ []) {now : ℕ}
    (hearly : now - start < timeout) : ∃ out,
      recv rx buf timeout ⟨start :: now :: clock, [], captures⟩ = .ok out ∧ out.result = none := by
  refine ⟨⟨rx, buf, ⟨clock, [], captures⟩, [], [], none⟩, recv_of_round hcount hbuf ?_, rfl⟩
  simp only [recvRound, hcount, gt_iff_lt, lt_irrefl, if_false, ge_iff_le,
    Nat.not_le_of_lt hearly, usub_ok hearly.le, ok_bind]
  rfl

/-- A call whose first poll returns 0. -/
lemma recv_zero (hcount : rx.ringCount = 0) (hbuf : buf ≠ []) {now : ℕ}
    (hearly : now - start < timeout) :
    recv rx buf timeout ⟨start :: now :: clock, .zero :: polls, captures⟩ =
      .ok ⟨rx, buf, ⟨clock, polls, captures⟩,
        [⟨now, min ((timeout - (now - start)) / 1000000) (2 ^ 31 - 1), .zero⟩], [],
        some (.ok none)⟩ := by
  refine recv_of_round hcount hbuf ?_
  simp only [recvRound, hcount, gt_iff_lt, lt_irrefl, if_false, ge_iff_le,
    Nat.not_le_of_lt hearly, usub_ok hearly.le, ok_bind]
  rfl

end OneRound

/-- A call with a frame in the ring returns the oldest one, whatever the timeout. -/
lemma recv_queued {rx : WfbRx} (hinv : RingInv rx) (hcount : 0 < rx.ringCount) {buf : List UInt8}
    (hbuf : buf ≠ []) (world : World) : ∃ f out, rx.queue.head? = some f ∧
      out.result = some (.ok (some (min f.payload.length buf.length, f.metaFor buf.length))) ∧
      ∀ timeout, recv rx buf timeout world = .ok out := by
  obtain ⟨f, hqueue, -, hpop⟩ := popOne_eq hinv hcount buf (some default)
  refine ⟨f, ⟨popped rx, f.payload.take buf.length ++ buf.drop f.payload.length, world, [], [],
    some (.ok (some (min f.payload.length buf.length, f.metaFor buf.length)))⟩, by rw [hqueue]; rfl,
    rfl, fun timeout => ?_⟩
  simp only [recv, if_neg hbuf, if_pos hcount, RecvState.returnFrame, hpop, ok_bind, pure_eq_ok]
  rfl

/-- What a call on waiting packets returns. -/
lemma recv_of_waiting {rx : WfbRx} (hinv : RingInv rx) {buf : List UInt8} (hbuf : buf ≠ [])
    (timeout : ℕ) {world : World} {start now : ℕ} (hw : Waiting rx world start now) :
    ∃ out, recv rx buf timeout world = .ok out ∧
      (0 < rx.ringCount ∨ now - start < timeout → out.ReturnsFrame) ∧
      (¬ (0 < rx.ringCount ∨ now - start < timeout) → out.result = some (.ok none)) := by
  rcases Nat.eq_zero_or_pos rx.ringCount with hcount | hcount
  · obtain ⟨readings, clock, polls, pending, captures, rfl, hmono, hpending⟩ := hw
    have hsorted : ∀ r ∈ readings, r ≤ now := by
      intro r hr
      have happ := (List.pairwise_append.mp (List.pairwise_cons.mp hmono).2).2.2
      exact happ r hr now (by simp)
    obtain ⟨out, hout, hframe, hnone⟩ := loop_waiting buf clock polls captures [] [] timeout
      start hinv hcount hpending readings hsorted (n := (readings ++ now :: clock).length + 1)
      (by simp only [List.length_append, List.length_cons]; omega)
    refine ⟨out, ?_, fun h => hframe (by omega), fun h => hnone (by omega)⟩
    simp only [recv, if_neg hbuf, hcount, gt_iff_lt, lt_irrefl, if_false, hout, ok_bind,
      pure_eq_ok]
  · obtain ⟨f, out, -, hresult, hout⟩ := recv_queued hinv hcount hbuf world
    exact ⟨out, hout timeout, fun _ => ⟨_, _, hresult⟩, fun h => absurd (.inl hcount) h⟩

lemma returnsFrame_iff_of {out : RecvOut} {P : Prop} (hyes : P → out.ReturnsFrame)
    (hno : ¬ P → out.result = some (.ok none)) :
    (out.ReturnsFrame ↔ P) ∧ (out.result = some (.ok none) ↔ ¬ P) := by
  by_cases h : P
  · have hframe := hyes h
    exact ⟨iff_of_true hframe h,
      iff_of_false (fun hnone => RecvOut.not_returnsFrame hnone hframe) (not_not_intro h)⟩
  · have hnone := hno h
    exact ⟨iff_of_false (RecvOut.not_returnsFrame hnone) h, iff_of_true hnone h⟩

/-- The code of the C call is determined by the result of `recv`. -/
lemma wfbRxRecv_code {rx : WfbRx} {buf : List UInt8} (hbuf : buf ≠ []) (timeoutMs : UInt32)
    (outLen : ℕ) (outMeta : Option CRxMeta) {world : World} {out : RecvOut}
    (hout : recv rx buf (fromMillis timeoutMs.toNat) world = .ok out) :
    ((wfbRxRecv (some rx) (some buf) timeoutMs (some outLen) outMeta world).code = some wfbRsOk ↔
      out.ReturnsFrame) ∧
    ((wfbRxRecv (some rx) (some buf) timeoutMs (some outLen) outMeta world).code =
      some wfbRsErrTimeout ↔ out.result = some (.ok none)) := by
  have hlen : buf.length ≠ 0 := by simpa using hbuf
  simp only [wfbRxRecv, if_neg hlen, hout, RecvOut.ReturnsFrame]
  rcases out.result with _ | (e | (_ | ⟨n, rxMeta⟩))
  · simp
  · cases e <;> simp [mapErr, wfbRsOk, wfbRsErrTimeout, wfbRsErrIo, wfbRsErrPcap,
      wfbRsErrInvalidArgument]
  · simp [wfbRsOk, wfbRsErrTimeout]
  · simp [wfbRsOk, wfbRsErrTimeout]

/-- **Waiting frames.** With acceptable packets waiting, `recv` returns a frame if and only if one
was queued already or the timeout has not passed at the clock reading before the poll; otherwise
it reports a timeout.  The same holds of the C call and its timeout in milliseconds. -/
theorem recv_waiting_iff {rx : WfbRx} (hr : Reachable rx) {buf : List UInt8} (hbuf : buf ≠ [])
    {world : World} {start now : ℕ} (hw : Waiting rx world start now) :
    (∀ timeout, ∃ out, recv rx buf timeout world = .ok out ∧
      (out.ReturnsFrame ↔ 0 < rx.ringCount ∨ now - start < timeout) ∧
      (out.result = some (.ok none) ↔ ¬ (0 < rx.ringCount ∨ now - start < timeout))) ∧
    ∀ (timeoutMs : UInt32) (outLen : ℕ) (outMeta : Option CRxMeta),
      ((wfbRxRecv (some rx) (some buf) timeoutMs (some outLen) outMeta world).code = some wfbRsOk ↔
        0 < rx.ringCount ∨ now - start < fromMillis timeoutMs.toNat) ∧
      ((wfbRxRecv (some rx) (some buf) timeoutMs (some outLen) outMeta world).code =
          some wfbRsErrTimeout ↔
        ¬ (0 < rx.ringCount ∨ now - start < fromMillis timeoutMs.toNat)) := by
  constructor
  · intro timeout
    obtain ⟨out, hout, hyes, hno⟩ := recv_of_waiting hr.inv hbuf timeout hw
    exact ⟨out, hout, returnsFrame_iff_of hyes hno⟩
  · intro timeoutMs outLen outMeta
    obtain ⟨out, hout, hyes, hno⟩ :=
      recv_of_waiting hr.inv hbuf (fromMillis timeoutMs.toNat) hw
    obtain ⟨hframe, hnone⟩ := returnsFrame_iff_of hyes hno
    obtain ⟨hok, htimeout⟩ := wfbRxRecv_code hbuf timeoutMs outLen outMeta hout
    exact ⟨hok.trans hframe, htimeout.trans hnone⟩

/-- A waiting packet on a receiver of its stream. -/
lemma onWlan0_waiting : Waiting onWlan0 ⟨[0, 0], [.ready], [[heardPacket]]⟩ 0 0 :=
  ⟨[], [], [], [heardPacket], [], rfl, by decide, by decide +kernel⟩

theorem onWlan0_waiting_iff : ∃ out,
    recv onWlan0 [0, 0] 1 ⟨[0, 0], [.ready], [[heardPacket]]⟩ = .ok out ∧ out.ReturnsFrame := by
  obtain ⟨out, hout, hframe, -⟩ :=
    (recv_waiting_iff (.opened opened_onWlan0) (show ([0, 0] : List UInt8) ≠ [] by decide) onWlan0_waiting).1 1
  exact ⟨out, hout, hframe.mpr (.inr (by decide))⟩

/-- With a timeout of zero the packet is not found. -/
theorem not_recv_waiting : ¬ ∀ (rx : WfbRx), Reachable rx → ∀ (buf : List UInt8), buf ≠ [] →
    ∀ (timeout : ℕ) (world : World) (start now : ℕ), Waiting rx world start now →
      ∃ out, recv rx buf timeout world = .ok out ∧ out.ReturnsFrame ∧
        out.result ≠ some (.ok none) := by
  intro h
  obtain ⟨out, hout, hframe, -⟩ :=
    h onWlan0 (.opened opened_onWlan0) [0, 0] (by decide) 0 _ 0 0 onWlan0_waiting
  obtain ⟨out', hout', -, hno⟩ := recv_of_waiting (opened_inv opened_onWlan0).1
    (show ([0, 0] : List UInt8) ≠ [] by decide) 0 onWlan0_waiting
  rw [hout] at hout'
  obtain rfl := Except.ok.inj hout'
  exact RecvOut.not_returnsFrame (hno (by decide)) hframe

end WfbRx

end WfbRs
