import WfbRs.Rx.Waiting

/-!
# When a call gives up

How much time a call of `recv` that reports a timeout has taken.  The clock is read once in
each round, before the poll; a poll that returns 0 ends the call without another reading.
`Timing` puts the calls and returns of the polls between the readings, and says of `poll` only
that it returns 0 no earlier than it was asked to.
-/

namespace WfbRs

open Rust RingBuffer

namespace WfbRx

/-! ### The time of a call -/

/-- When a poll was called and when it returned. -/
structure PollTime where
  called : ℕ
  returned : ℕ

/-- The readings of the clock, each followed by the poll of its round. -/
def moments : List ℕ → List PollTime → List ℕ
  | [], _ => []
  | r :: rs, [] => r :: rs
  | r :: rs, t :: ts => r :: t.called :: t.returned :: moments rs ts

/-- The times of a call that has used the beginning of a world, in nanoseconds. -/
structure Timing (world : World) (out : RecvOut) where
  /-- When `recv` was called. -/
  entered : ℕ
  start : ℕ
  readings : List ℕ
  polls : List PollTime
  /-- When it returned. -/
  left : ℕ
  read : world.clock = start :: (readings ++ out.world.clock)
  monotone : (entered :: start :: (moments readings polls ++ [left])).Pairwise (· ≤ ·)
  /-- A poll that returns 0 has waited for the milliseconds it was given. -/
  waited : List.Forall₂ (fun p t => p.outcome = .zero → t.called + p.remainingMs * 1000000 ≤ t.returned)
    out.polled polls

/-- The time left at the clock reading before the first poll that returns 0. -/
def timeLeft (timeout : ℕ) (world : World) : Option ℕ :=
  match world.clock with
  | [] => none
  | start :: readings =>
      ((readings.zip world.polls).find? fun r => r.2 = .zero).map fun r => timeout - (r.1 - start)

/-- That time is a whole number of milliseconds, and no more than an `int` holds. -/
def WholeWait (timeout : ℕ) (world : World) : Prop :=
  ∀ d ∈ timeLeft timeout world, d % 1000000 = 0 ∧ d ≤ (2 ^ 31 - 1) * 1000000

/-! ### How the loop ends -/

/-- The invariant of the loop: a reading for every poll, and no poll has returned 0. -/
structure PolledInv (start : ℕ) (world : World) (s : RecvState) : Prop where
  ring : RingInv s.rx
  clock : world.clock = start :: (s.polled.map PollCall.now ++ s.world.clock)
  polls : world.polls = s.polled.map PollCall.outcome ++ s.world.polls
  nonzero : ∀ p ∈ s.polled, p.outcome ≠ .zero

/-- The two ways in which a call reports a timeout. -/
inductive GivesUp (timeout : ℕ) (world : World) (out : RecvOut) : Prop
  /-- The timeout has passed at a reading of the clock. -/
  | expired (start now : ℕ) (late : timeout ≤ now - start)
      (clock : world.clock = start :: (out.polled.map PollCall.now ++ now :: out.world.clock))
      (polls : world.polls = out.polled.map PollCall.outcome ++ out.world.polls)
      (nonzero : ∀ p ∈ out.polled, p.outcome ≠ .zero)
  /-- A poll has returned 0. -/
  | polled (start now : ℕ) (init : List PollCall) (early : now - start < timeout)
      (last : out.polled =
        init ++ [⟨now, min ((timeout - (now - start)) / 1000000) (2 ^ 31 - 1), .zero⟩])
      (clock : world.clock = start :: (init.map PollCall.now ++ now :: out.world.clock))
      (polls : world.polls = init.map PollCall.outcome ++ .zero :: out.world.polls)
      (nonzero : ∀ p ∈ init, p.outcome ≠ .zero)

variable {rx : WfbRx} {buf : List UInt8} {timeout start : ℕ} {world : World} {out : RecvOut}

/-- A poll that does not return 0 keeps the invariant. -/
lemma PolledInv.next {s : RecvState} (h : PolledInv start world s) {now ms : ℕ} {clock : List ℕ}
    {outcome : PollOutcome} {polls : List PollOutcome} (hclock : s.world.clock = now :: clock)
    (hpolls : s.world.polls = outcome :: polls) (hne : outcome ≠ .zero) {rx' : WfbRx}
    (hring : RingInv rx') (captures : List (List CapturedPacket)) (drained : List Drain) :
    PolledInv start world
      ⟨rx', ⟨clock, polls, captures⟩, s.polled ++ [⟨now, ms, outcome⟩], drained⟩ where
  ring := hring
  clock := by rw [h.clock, hclock, List.map_append, List.append_assoc]; rfl
  polls := by rw [h.polls, hpolls, List.map_append, List.append_assoc]; rfl
  nonzero := by
    intro p hp
    rcases List.mem_append.mp hp with hp | hp
    · exact h.nonzero p hp
    · rw [List.mem_singleton.mp hp]
      exact hne

/-- One round keeps the invariant, or ends the call; it reports a timeout in two ways only. -/
lemma recvRound_givesUp (buf : List UInt8) (timeout : ℕ) {s : RecvState} (h : PolledInv start world s) :
    (∃ s', recvRound buf timeout start s = .ok (.next s') ∧ PolledInv start world s' ∧
        s'.world.clock.length < s.world.clock.length) ∨
      ∃ out, recvRound buf timeout start s = .ok (.ret out) ∧
        (out.result = some (.ok none) → GivesUp timeout world out) := by
  obtain ⟨rx₁, ⟨clock, polls, captures⟩, polled, drained⟩ := s
  by_cases hcount : rx₁.ringCount > 0
  · obtain ⟨out, hout, hframe⟩ := RecvState.returnFrame_ok (s := ⟨rx₁, ⟨clock, polls, captures⟩,
      polled, drained⟩) h.ring hcount buf
    refine .inr ⟨out, by rw [recvRound, if_pos hcount, hout]; rfl, fun hnone => ?_⟩
    exact absurd hframe (RecvOut.not_returnsFrame hnone)
  simp only [recvRound, if_neg hcount]
  cases clock with
  | nil => exact .inr ⟨_, rfl, fun hnone => by cases hnone⟩
  | cons now clock =>
      simp only
      by_cases helapsed : now - start ≥ timeout
      · rw [if_pos helapsed]
        exact .inr ⟨_, rfl, fun _ => .expired start now helapsed h.clock h.polls h.nonzero⟩
      rw [if_neg helapsed, usub_ok (by omega), ok_bind]
      cases polls with
      | nil => exact .inr ⟨_, rfl, fun hnone => by cases hnone⟩
      | cons outcome polls =>
          cases outcome with
          | interrupted =>
              exact .inl ⟨_, rfl, h.next rfl rfl (by decide) h.ring captures drained,
                Nat.lt_succ_self _⟩
          | failed errno => exact .inr ⟨_, rfl, fun hnone => by cases hnone⟩
          | zero =>
              exact .inr ⟨_, rfl, fun _ => .polled start now polled (Nat.lt_of_not_le helapsed) rfl
                h.clock h.polls h.nonzero⟩
          | ready =>
              cases captures with
              | nil => exact .inr ⟨_, rfl, fun hnone => by cases hnone⟩
              | cons batch captures =>
                  obtain ⟨rx', hdrain, hinv', -, -⟩ := drainPcapNonblock_spec h.ring batch
                  refine .inl ⟨_, by simp only [hdrain, ok_bind]; rfl, ?_, Nat.lt_succ_self _⟩
                  exact h.next rfl rfl (by decide) hinv' captures _

/-- A call that reports a timeout has done so in one of the two ways. -/
lemma recv_givesUp (hinv : RingInv rx) (hout : recv rx buf timeout world = .ok out)
    (hnone : out.result = some (.ok none)) : GivesUp timeout world out := by
  by_cases hbuf : buf = []
  · rw [recv, if_pos hbuf] at hout
    obtain rfl := Except.ok.inj hout
    cases hnone
  by_cases hcount : rx.ringCount > 0
  · obtain ⟨f, out', -, hresult, hout'⟩ := recv_queued hinv hcount hbuf world
    obtain rfl := Except.ok.inj ((hout' timeout).symm.trans hout)
    exact absurd ⟨_, _, hresult⟩ (RecvOut.not_returnsFrame hnone)
  obtain ⟨clock, polls, captures⟩ := world
  simp only [recv, if_neg hbuf, if_neg hcount] at hout
  cases clock with
  | nil =>
      obtain rfl := Except.ok.inj hout
      cases hnone
  | cons start clock =>
      have hstart : PolledInv start ⟨start :: clock, polls, captures⟩
          ⟨rx, ⟨clock, polls, captures⟩, [], []⟩ := ⟨hinv, rfl, rfl, by simp⟩
      obtain ⟨r, hloop, out', rfl, hends⟩ : ∃ r, loopN (recvRound buf timeout start)
          (clock.length + 1) ⟨rx, ⟨clock, polls, captures⟩, [], []⟩ = .ok r ∧ ∃ out', r = .inr out' ∧
            (out'.result = some (.ok none) →
              GivesUp timeout ⟨start :: clock, polls, captures⟩ out') := by
        refine loopN_spec (PolledInv start ⟨start :: clock, polls, captures⟩)
          (fun s => s.world.clock.length) _ ?_ _ _ hstart (Nat.lt_succ_self _)
        intro s hs
        rcases recvRound_givesUp buf timeout hs with
          ⟨s', hround, hs', hlt⟩ | ⟨out', hround, hends⟩
        · exact .inl ⟨s', hround, hs', hlt⟩
        · exact .inr (.inr ⟨out', hround, out', rfl, hends⟩)
      simp only [hloop, ok_bind] at hout
      obtain rfl := Except.ok.inj hout
      exact hends hnone

/-! ### The time left -/

/-- Rounds whose polls do not return 0 do not count. -/
lemma find_zero_append {init : List PollCall} (h : ∀ p ∈ init, p.outcome ≠ .zero)
    (clock : List ℕ) (polls : List PollOutcome) :
    ((init.map PollCall.now ++ clock).zip (init.map PollCall.outcome ++ polls)).find?
        (fun r => r.2 = .zero) = (clock.zip polls).find? fun r => r.2 = .zero := by
  induction init with
  | nil => rfl
  | cons p init ih =>
      have hp : p.outcome ≠ .zero := h p (by simp)
      have hrest := ih fun q hq => h q (by simp [hq])
      simp only [List.map_cons, List.cons_append, List.zip_cons_cons, List.find?_cons, hp,
        decide_false]
      exact hrest

/-- Nothing is left once the timeout has passed at a reading. -/
lemma wholeWait_of_expired {now : ℕ} {init : List PollCall} {clock : List ℕ}
    {polls : List PollOutcome} (hclock : world.clock = start :: (init.map PollCall.now ++ now :: clock))
    (hpolls : world.polls = init.map PollCall.outcome ++ polls)
    (hmono : world.clock.Pairwise (· ≤ ·)) (hlate : timeout ≤ now - start)
    (hnonzero : ∀ p ∈ init, p.outcome ≠ .zero) : WholeWait timeout world := by
  intro d hd
  simp only [timeLeft, hclock, hpolls, find_zero_append hnonzero, Option.mem_def,
    Option.map_eq_some_iff] at hd
  obtain ⟨⟨r, o⟩, hfind, rfl⟩ := hd
  have hmem : r ∈ now :: clock := (List.of_mem_zip (List.mem_of_find?_eq_some hfind)).1
  have hle : now ≤ r := by
    rcases List.mem_cons.mp hmem with rfl | hr
    · exact le_rfl
    · rw [hclock] at hmono
      have hsorted := (List.pairwise_append.mp (List.pairwise_cons.mp hmono).2).2.1
      exact (List.pairwise_cons.mp hsorted).1 r hr
  have hzero : timeout - (r - start) = 0 := by omega
  rw [hzero]
  exact ⟨rfl, Nat.zero_le _⟩

lemma timeLeft_of_polled {now : ℕ} {init : List PollCall} {clock : List ℕ}
    {polls : List PollOutcome} (hclock : world.clock = start :: (init.map PollCall.now ++ now :: clock))
    (hpolls : world.polls = init.map PollCall.outcome ++ .zero :: polls)
    (hnonzero : ∀ p ∈ init, p.outcome ≠ .zero) :
    timeLeft timeout world = some (timeout - (now - start)) := by
  simp [timeLeft, hclock, hpolls, find_zero_append hnonzero]

/-! ### Moments -/

lemma moments_append {rs : List ℕ} {ts : List PollTime} (h : rs.length = ts.length) (rs' : List ℕ)
    (ts' : List PollTime) : moments (rs ++ rs') (ts ++ ts') = moments rs ts ++ moments rs' ts' := by
  induction rs generalizing ts with
  | nil =>
      obtain rfl := List.length_eq_zero_iff.mp h.symm
      rfl
  | cons r rs ih =>
      cases ts with
      | nil => simp at h
      | cons t ts => simp only [List.cons_append, moments, ih (Nat.succ.inj h)]

/-- Polls that return at once, each at the reading before it. -/
def instantly (rs : List ℕ) : List PollTime := rs.map fun r => ⟨r, r⟩

lemma mem_moments_instantly {rs : List ℕ} {m : ℕ} (h : m ∈ moments rs (instantly rs)) : m ∈ rs := by
  induction rs with
  | nil => exact h
  | cons r rs ih =>
      simp only [instantly, List.map_cons, moments, List.mem_cons] at h ⊢
      rcases h with h | h | h | h
      · exact .inl h
      · exact .inl h
      · exact .inl h
      · exact .inr (ih h)

lemma pairwise_moments_instantly {rs : List ℕ} (h : rs.Pairwise (· ≤ ·)) :
    (moments rs (instantly rs)).Pairwise (· ≤ ·) := by
  induction rs with
  | nil => exact .nil
  | cons r rs ih =>
      obtain ⟨hr, hrs⟩ := List.pairwise_cons.mp h
      have hle : ∀ m ∈ moments rs (instantly rs), r ≤ m := fun m hm => hr m (mem_moments_instantly hm)
      have hrest := ih hrs
      simp only [instantly, List.map_cons, moments, List.pairwise_cons, List.mem_cons,
        forall_eq_or_imp, le_refl, true_and]
      exact ⟨hle, hle, hle, hrest⟩

/-- The moments of polls that return at once, and of a last one that waits. -/
lemma pairwise_moments_polled {rs : List ℕ} {start now : ℕ}
    (h : (start :: (rs ++ [now])).Pairwise (· ≤ ·)) (wait : ℕ) :
    (start :: start :: (moments (rs ++ [now]) (instantly rs ++ [⟨now, now + wait⟩]) ++
      [now + wait])).Pairwise (· ≤ ·) := by
  obtain ⟨hstart, hrest⟩ := List.pairwise_cons.mp h
  obtain ⟨hsorted, -, hbefore⟩ := List.pairwise_append.mp hrest
  have hnow : start ≤ now := hstart now (by simp)
  have hle : ∀ m ∈ moments rs (instantly rs), start ≤ m ∧ m ≤ now := fun m hm => by
    have hmem := mem_moments_instantly hm
    exact ⟨hstart m (List.mem_append_left _ hmem), hbefore m hmem now (by simp)⟩
  have hlast : ([now, now, now + wait, now + wait] : List ℕ).Pairwise (· ≤ ·) := by simp
  have hbehind : ∀ b ∈ [now, now, now + wait, now + wait], now ≤ b := by simp
  have hmoments : (moments rs (instantly rs) ++ [now, now, now + wait, now + wait]).Pairwise
      (· ≤ ·) := List.pairwise_append.mpr ⟨pairwise_moments_instantly hsorted, hlast,
    fun m hm b hb => (hle m hm).2.trans (hbehind b hb)⟩
  have hfirst : ∀ m ∈ moments rs (instantly rs) ++ [now, now, now + wait, now + wait], start ≤ m := by
    intro m hm
    rcases List.mem_append.mp hm with hm | hm
    · exact (hle m hm).1
    · exact hnow.trans (hbehind m hm)
  rw [moments_append (by simp [instantly]), List.append_assoc]
  refine List.pairwise_cons.mpr ⟨?_, List.pairwise_cons.mpr ⟨hfirst, hmoments⟩⟩
  intro m hm
  rcases List.mem_cons.mp hm with rfl | hm
  · exact le_rfl
  · exact hfirst m hm

/-! ### The time that a call has taken -/

section Taken

variable {now : ℕ} {init : List PollCall}

/-- The moments of the last rounds are still in order. -/
lemma Timing.monotone_suffix (tm : Timing world out) {rs rs' : List ℕ} {ts ts' : List PollTime}
    (hreadings : tm.readings = rs ++ rs') (hpolls : tm.polls = ts ++ ts')
    (hlen : rs.length = ts.length) :
    (tm.entered :: tm.start :: (moments rs' ts' ++ [tm.left])).Pairwise (· ≤ ·) := by
  have hmono := tm.monotone
  rw [hreadings, hpolls, moments_append hlen, List.append_assoc] at hmono
  exact hmono.sublist (.cons_cons _ (.cons_cons _ (List.sublist_append_right _ _)))

/-- The readings of a call are those in front of what it leaves. -/
lemma Timing.readings_eq (tm : Timing world out) {rs : List ℕ}
    (hclock : world.clock = start :: (rs ++ now :: out.world.clock)) :
    tm.start = start ∧ tm.readings = rs ++ [now] := by
  obtain ⟨hstart, hrest⟩ := List.cons.inj (tm.read.symm.trans hclock)
  rw [List.append_cons] at hrest
  exact ⟨hstart, List.append_cancel_right hrest⟩

/-- A call that ends behind the deadline has taken the whole timeout. -/
lemma Timing.taken_of_expired (tm : Timing world out) (hlate : timeout ≤ now - start)
    (hclock : world.clock = start :: (out.polled.map PollCall.now ++ now :: out.world.clock)) :
    timeout ≤ tm.left - tm.entered := by
  obtain ⟨hstart, hreadings⟩ := tm.readings_eq hclock
  have hlen : (out.polled.map PollCall.now).length = tm.polls.length := by
    rw [List.length_map, tm.waited.length_eq]
  have hmono := tm.monotone_suffix hreadings (List.append_nil tm.polls).symm hlen
  simp only [moments, List.cons_append, List.nil_append, hstart, List.pairwise_cons, List.mem_cons,
    forall_eq_or_imp] at hmono
  have hentered : tm.entered ≤ start := hmono.1.1
  have hleft : now ≤ tm.left := hmono.2.2.1.1
  omega

/-- A call that ends with a poll has taken at least the wait of that poll. -/
lemma Timing.taken_of_polled (tm : Timing world out) {ms : ℕ}
    (hlast : out.polled = init ++ [⟨now, ms, .zero⟩])
    (hclock : world.clock = start :: (init.map PollCall.now ++ now :: out.world.clock)) :
    (now - start) + ms * 1000000 ≤ tm.left - tm.entered := by
  obtain ⟨hstart, hreadings⟩ := tm.readings_eq hclock
  have hwaited := tm.waited
  rw [hlast] at hwaited
  -- the last poll is the one that has returned 0
  obtain ⟨t, ts, hwait, hnil, hdrop⟩ := List.forall₂_cons_left_iff.mp
    (@List.drop_left _ init [⟨now, ms, .zero⟩] ▸ List.forall₂_drop init.length hwaited)
  rw [List.forall₂_nil_left_iff.mp hnil] at hdrop
  have hpolls : tm.polls = tm.polls.take init.length ++ [t] := by
    rw [← hdrop, List.take_append_drop]
  have hlen : (init.map PollCall.now).length = (tm.polls.take init.length).length := by
    have hle := hwaited.length_eq
    rw [List.length_append] at hle
    rw [List.length_map, List.length_take]
    omega
  have hmono := tm.monotone_suffix hreadings hpolls hlen
  simp only [moments, List.cons_append, List.nil_append, hstart, List.pairwise_cons, List.mem_cons,
    forall_eq_or_imp] at hmono
  obtain ⟨⟨hentered, -⟩, ⟨hnow, -⟩, ⟨hcalled, -⟩, -, ⟨hleft, -⟩, -⟩ := hmono
  have hreturned : t.called + ms * 1000000 ≤ t.returned := hwait rfl
  omega

/-- Such a call may take no more than that. -/
lemma exists_timing_of_polled {ms : ℕ} (hlast : out.polled = init ++ [⟨now, ms, .zero⟩])
    (hclock : world.clock = start :: (init.map PollCall.now ++ now :: out.world.clock))
    (hnonzero : ∀ p ∈ init, p.outcome ≠ .zero) (hmono : world.clock.Pairwise (· ≤ ·)) :
    ∃ tm : Timing world out, tm.left - tm.entered = now + ms * 1000000 - start := by
  have hsorted : (start :: (init.map PollCall.now ++ [now])).Pairwise (· ≤ ·) := by
    rw [hclock, List.append_cons] at hmono
    exact hmono.sublist (.cons_cons _ (List.sublist_append_left _ _))
  -- the polls before the last one return at once, the last one as soon as it may
  refine ⟨⟨start, start, init.map PollCall.now ++ [now],
    instantly (init.map PollCall.now) ++ [⟨now, now + ms * 1000000⟩], now + ms * 1000000, ?_,
    pairwise_moments_polled hsorted _, ?_⟩, rfl⟩
  · rw [hclock, List.append_assoc, List.singleton_append]
  · rw [hlast]
    refine List.rel_append ?_ (.cons (fun _ => le_rfl) .nil)
    rw [instantly, List.map_map, List.forall₂_map_right_iff, List.forall₂_same]
    exact fun p hp hzero => absurd hzero (hnonzero p hp)

end Taken

/-! ### Giving up early -/

/-- What a timeout says of the time taken. -/
lemma GivesUp.early_iff (h : GivesUp timeout world out) (hmono : world.clock.Pairwise (· ≤ ·)) :
    (∀ tm : Timing world out, timeout ≤ tm.left - tm.entered) ↔ WholeWait timeout world := by
  cases h with
  | expired start now late clock polls nonzero =>
      exact iff_of_true (fun tm => tm.taken_of_expired late clock)
        (wholeWait_of_expired clock polls hmono late nonzero)
  | polled start now init early last clock polls nonzero =>
      have hleft : timeLeft timeout world = some (timeout - (now - start)) :=
        timeLeft_of_polled clock polls nonzero
      have hnow : start ≤ now := by
        rw [clock] at hmono
        exact (List.pairwise_cons.mp hmono).1 now (by simp)
      simp only [WholeWait, hleft, Option.mem_some_iff, forall_eq']
      constructor
      · intro htaken
        obtain ⟨tm, htm⟩ := exists_timing_of_polled last clock nonzero hmono
        have hle := htaken tm
        omega
      · rintro ⟨hwhole, hmax⟩ tm
        have htaken := tm.taken_of_polled last clock
        omega

/-- **Giving up early.** A call that reports a timeout has taken the whole timeout, whatever the
times of its polls, if and only if the time left before the poll that returned 0 was a whole
number of milliseconds and no more than an `int` holds.  The same holds of the C call. -/
theorem recv_early_iff {rx : WfbRx} (hr : Reachable rx) {world : World}
    (hmono : world.clock.Pairwise (· ≤ ·)) (buf : List UInt8) :
    (∀ timeout out, recv rx buf timeout world = .ok out → out.result = some (.ok none) →
      ((∀ tm : Timing world out, timeout ≤ tm.left - tm.entered) ↔ WholeWait timeout world)) ∧
    ∀ (timeoutMs : UInt32) (outLen : ℕ) (outMeta : Option CRxMeta),
      (wfbRxRecv (some rx) (some buf) timeoutMs (some outLen) outMeta world).code =
          some wfbRsErrTimeout →
        ∃ out, recv rx buf (fromMillis timeoutMs.toNat) world = .ok out ∧
          out.result = some (.ok none) ∧
          ((∀ tm : Timing world out, fromMillis timeoutMs.toNat ≤ tm.left - tm.entered) ↔
            WholeWait (fromMillis timeoutMs.toNat) world) := by
  constructor
  · intro timeout out hout hnone
    exact (recv_givesUp hr.inv hout hnone).early_iff hmono
  · intro timeoutMs outLen outMeta hcode
    obtain ⟨out, hout, -⟩ := recv_spec hr.inv buf (fromMillis timeoutMs.toNat) world
    have hbuf : buf ≠ [] := by
      rintro rfl
      simp [wfbRxRecv, wfbRsErrInvalidArgument, wfbRsErrTimeout] at hcode
    have hnone := (wfbRxRecv_code hbuf timeoutMs outLen outMeta hout).2.mp hcode
    exact ⟨out, hout, hnone, (recv_givesUp hr.inv hout hnone).early_iff hmono⟩

/-- A wait of 10 ms. -/
theorem onWlan0_not_early : ∃ out,
    recv onWlan0 [0, 0] 10000000 ⟨[0, 0], [.zero], []⟩ = .ok out ∧ out.result = some (.ok none) ∧
      ∀ tm : Timing ⟨[0, 0], [.zero], []⟩ out, 10000000 ≤ tm.left - tm.entered := by
  have hout : recv onWlan0 [0, 0] 10000000 ⟨[0, 0], [.zero], []⟩ = .ok _ :=
    recv_zero rfl (by decide) (by decide)
  exact ⟨_, hout, rfl, ((recv_early_iff (.opened opened_onWlan0) (by decide) [0, 0]).1 _ _ hout
    rfl).mpr (by simp [WholeWait, timeLeft])⟩

/-- A timeout of 1 ms may be over at once: a nanosecond after the start there is less than a
millisecond left, and the poll waits for 0 of them. -/
theorem not_recv_not_early : ¬ ∀ (rx : WfbRx), Reachable rx → rx.ringCount = 0 →
    ∀ (buf : List UInt8) (timeout : ℕ) (world : World) (out : RecvOut),
      world.clock.Pairwise (· ≤ ·) → recv rx buf timeout world = .ok out →
      out.result = some (.ok none) →
        ∀ tm : Timing world out, timeout ≤ tm.left - tm.entered := by
  intro h
  have hout : recv onWlan0 [0, 0] (fromMillis 1) ⟨[0, 1], [.zero], []⟩ = .ok _ :=
    recv_zero rfl (by decide) (by decide)
  have htaken := h onWlan0 (.opened opened_onWlan0) rfl [0, 0] (fromMillis 1) _ _ (by decide) hout
    rfl ⟨0, 0, [1], [⟨1, 1⟩], 2, rfl, by decide, .cons (fun _ => by decide) .nil⟩
  exact absurd htaken (by decide)

end WfbRx

end WfbRs
