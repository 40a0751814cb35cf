import WfbRs.Rx.Deadline

/-!
# When a call is over

`recv` computes the remaining time anew in each round.  So interrupted polls and packets that are
all rejected do not add up: a call is over soon after its timeout, however many rounds it takes,
and it ends at the first reading of the clock behind the deadline at the latest.
-/

namespace WfbRs

open Rust RingBuffer

namespace WfbRx

/-! ### Delays -/

/-- From the moment `t` on, nothing takes longer than `δ` but the polls, and they overstay the
milliseconds they were given by no more.  A drain counts to what follows its poll. -/
def Swift (δ left : ℕ) : ℕ → List ℕ → List (PollCall × PollTime) → Prop
  | t, [], _ => left ≤ t + δ
  | t, r :: rs, [] => r ≤ t + δ ∧ Swift δ left r rs []
  | t, r :: rs, p :: ps =>
      r ≤ t + δ ∧ p.2.called ≤ r + δ ∧ p.2.returned ≤ p.2.called + p.1.remainingMs * 1000000 + δ ∧
        Swift δ left p.2.returned rs ps

/-- A call without long delays. -/
def Timing.Prompt {world : World} {out : RecvOut} (tm : Timing world out) (δ : ℕ) : Prop :=
  tm.start ≤ tm.entered + δ ∧ Swift δ tm.left tm.start tm.readings (out.polled.zip tm.polls)

/-! ### The rounds of a call -/

/-- The poll was called before the deadline and is given no more than the time left. -/
def PollCall.InTime (deadline : ℕ) (p : PollCall) : Prop :=
  p.now < deadline ∧ p.now + p.remainingMs * 1000000 ≤ deadline

@[simp] lemma RecvState.leave_result (s : RecvState) (buf : List UInt8)
    (result : Option RecvResult) : (s.leave buf result).result = result := rfl

/-- The invariant of the loop: a reading and a poll in each round, in time. -/
structure RoundsInv (deadline start : ℕ) (world : World) (s : RecvState) : Prop where
  ring : RingInv s.rx
  clock : world.clock = start :: (s.polled.map PollCall.now ++ s.world.clock)
  polls : world.polls.length = s.polled.length + s.world.polls.length
  captures : world.captures.length ≤ s.polled.length + s.world.captures.length
  inTime : ∀ p ∈ s.polled, PollCall.InTime deadline p

/-- The readings, the polls or the captures have run out. -/
def Exhausted (world : World) : Prop :=
  world.clock = [] ∨ world.polls = [] ∨ world.captures = []

/-- How a call ends: behind its rounds there is at most one more reading, and it still runs only
when the world has ended. -/
structure Ended (deadline start : ℕ) (world : World) (out : RecvOut) : Prop where
  clock : ∃ last : List ℕ, last.length ≤ 1 ∧
    world.clock = start :: (out.polled.map PollCall.now ++ last ++ out.world.clock)
  inTime : ∀ p ∈ out.polled, PollCall.InTime deadline p
  running : out.result = none → world.clock.tail = out.polled.map PollCall.now ∨
    world.polls.length < world.clock.length ∨ world.captures.length < world.clock.length
  exhausted : out.result = none → Exhausted out.world

variable {rx : WfbRx} {buf : List UInt8} {timeout start : ℕ} {world : World} {out : RecvOut}

lemma RoundsInv.ended {deadline : ℕ} {s : RecvState} (h : RoundsInv deadline start world s)
    (hpolled : out.polled = s.polled) (hworld : out.world.clock = s.world.clock)
    (hresult : out.result ≠ none) : Ended deadline start world out where
  clock := ⟨[], Nat.zero_le _, by rw [hpolled, hworld, List.append_nil, h.clock]⟩
  inTime := hpolled ▸ h.inTime
  running hnone := absurd hnone hresult
  exhausted hnone := absurd hnone hresult

/-- A round keeps the invariant, or ends the call. -/
lemma recvRound_rounds (buf : List UInt8) (timeout : ℕ) {s : RecvState}
    (h : RoundsInv (start + timeout) start world s) :
    (∃ s', recvRound buf timeout start s = .ok (.next s') ∧
        RoundsInv (start + timeout) start world s' ∧
        s'.world.clock.length < s.world.clock.length) ∨
      ∃ out, recvRound buf timeout start s = .ok (.ret out) ∧
        Ended (start + timeout) start world out := by
  obtain ⟨rx₁, ⟨clock, polls, captures⟩, polled, drained⟩ := s
  by_cases hcount : rx₁.ringCount > 0
  · obtain ⟨f, -, -, hpop⟩ := popOne_eq h.ring hcount buf (some default)
    refine .inr ⟨_, by rw [recvRound, if_pos hcount, RecvState.returnFrame, hpop]; rfl, ?_⟩
    exact h.ended rfl rfl (by simp)
  have hlength := congrArg List.length h.clock
  have hpolls := h.polls
  have hcaptures := h.captures
  simp only [List.length_cons, List.length_append, List.length_map] at hlength
  simp only [recvRound, if_neg hcount]
  cases clock with
  | nil =>
      refine .inr ⟨_, rfl, ?_⟩
      exact
        { clock := ⟨[], Nat.zero_le _, by rw [List.append_nil, h.clock]; rfl⟩
          inTime := h.inTime
          running := fun _ => .inl (by rw [h.clock, List.append_nil]; rfl)
          exhausted := fun _ => .inl rfl }
  | cons now clock =>
      simp only [List.length_cons] at hlength
      -- the reading is the last one, unless its poll starts another round
      have hlast : world.clock = start :: (polled.map PollCall.now ++ [now] ++ clock) := by
        rw [h.clock, List.append_assoc]
        rfl
      have hends : ∀ out : RecvOut, out.polled = polled → out.world.clock = clock →
          (out.result = none → polls = [] ∧ out.world.polls = []) →
            Ended (start + timeout) start world out := by
        intro out hp hw hrunning
        refine ⟨⟨[now], le_rfl, by rw [hp, hw, hlast]⟩, hp ▸ h.inTime, fun hnone => ?_,
          fun hnone => .inr (.inl (hrunning hnone).2)⟩
        obtain ⟨rfl, -⟩ := hrunning hnone
        simp only [List.length_nil] at hpolls
        exact .inr (.inl (by omega))
      simp only
      by_cases helapsed : now - start ≥ timeout
      · rw [if_pos helapsed]
        exact .inr ⟨_, rfl, hends _ rfl rfl (by simp)⟩
      rw [if_neg helapsed, usub_ok (by omega), ok_bind]
      have hintime : ∀ outcome, PollCall.InTime (start + timeout)
          ⟨now, min ((timeout - (now - start)) / 1000000) (2 ^ 31 - 1), outcome⟩ := by
        intro outcome
        have hms := Nat.div_mul_le_self (timeout - (now - start)) 1000000
        have hmin := min_le_left ((timeout - (now - start)) / 1000000) (2 ^ 31 - 1)
        exact ⟨by simp only; omega, by simp only; omega⟩
      cases polls with
      | nil => exact .inr ⟨_, rfl, hends _ rfl rfl fun _ => ⟨rfl, rfl⟩⟩
      | cons outcome polls =>
          simp only [List.length_cons] at hpolls
          -- the state behind the poll
          have hnext : ∀ (rx' : WfbRx) (captures' : List (List CapturedPacket)) (drained' : List Drain),
              RingInv rx' → captures.length ≤ captures'.length + 1 →
              RoundsInv (start + timeout) start world ⟨rx', ⟨clock, polls, captures'⟩,
                polled ++ [⟨now, min ((timeout - (now - start)) / 1000000) (2 ^ 31 - 1), outcome⟩],
                drained'⟩ := by
            intro rx' captures' drained' hring hlen
            simp only at hcaptures
            refine ⟨hring, ?_, ?_, ?_, ?_⟩
            · rw [hlast, List.map_append]
              rfl
            · simp only [List.length_append, List.length_singleton]
              omega
            · simp only [List.length_append, List.length_singleton]
              omega
            · intro p hp
              rcases List.mem_append.mp hp with hp | hp
              · exact h.inTime p hp
              · rw [List.mem_singleton.mp hp]
                exact hintime outcome
          cases outcome with
          | interrupted => exact .inl ⟨_, rfl, hnext rx₁ captures drained h.ring (by omega),
              Nat.lt_succ_self _⟩
          | failed errno =>
              refine .inr ⟨_, rfl, ?_⟩
              exact (hnext rx₁ captures drained h.ring (by omega)).ended rfl rfl (by simp)
          | zero =>
              refine .inr ⟨_, rfl, ?_⟩
              exact (hnext rx₁ captures drained h.ring (by omega)).ended rfl rfl (by simp)
          | ready =>
              cases captures with
              | nil =>
                  refine .inr ⟨_, rfl, ?_⟩
                  have hinv := hnext rx₁ [] drained h.ring (by simp)
                  refine ⟨⟨[], Nat.zero_le _, by rw [List.append_nil]; exact hinv.clock⟩,
                    hinv.inTime, fun _ => .inr (.inr ?_), fun _ => .inr (.inr rfl)⟩
                  simp only [List.length_nil] at hcaptures
                  omega
              | cons batch captures =>
                  obtain ⟨rx', hdrain, hring, -, -⟩ := drainPcapNonblock_spec h.ring batch
                  refine .inl ⟨_, by simp only [hdrain, ok_bind]; rfl,
                    hnext rx' captures _ hring ?_, Nat.lt_succ_self _⟩
                  simp

/-- A call that reads the clock ends as its rounds say. -/
lemma recv_ended (hinv : RingInv rx) (hbuf : buf ≠ []) (hcount : rx.ringCount = 0)
    {clock : List ℕ} (hclock : world.clock = start :: clock)
    (hout : recv rx buf timeout world = .ok out) : Ended (start + timeout) start world out := by
  obtain ⟨_, polls, captures⟩ := world
  obtain rfl : _ = start :: clock := hclock
  simp only [recv, if_neg hbuf, hcount, gt_iff_lt, lt_irrefl, if_false] at hout
  have hstart : RoundsInv (start + timeout) start ⟨start :: clock, polls, captures⟩
      ⟨rx, ⟨clock, polls, captures⟩, [], []⟩ :=
    ⟨hinv, rfl, (Nat.zero_add _).symm, (Nat.zero_add _).ge, by simp⟩
  obtain ⟨r, hloop, out', rfl, hended⟩ : ∃ r, loopN (recvRound buf timeout start)
      (clock.length + 1) ⟨rx, ⟨clock, polls, captures⟩, [], []⟩ = .ok r ∧ ∃ out', r = .inr out' ∧
        Ended (start + timeout) start ⟨start :: clock, polls, captures⟩ out' := by
    refine loopN_spec (RoundsInv (start + timeout) start ⟨start :: clock, polls, captures⟩)
      (fun s => s.world.clock.length) _ ?_ _ _ hstart (Nat.lt_succ_self _)
    intro s hs
    rcases recvRound_rounds buf timeout hs with ⟨s', hround, hs', hlt⟩ | ⟨out', hround, hended⟩
    · exact .inl ⟨s', hround, hs', hlt⟩
    · exact .inr (.inr ⟨out', hround, out', rfl, hended⟩)
  simp only [hloop, ok_bind] at hout
  exact Except.ok.inj hout ▸ hended

/-- A call with a frame in the ring or without a buffer leaves the clock alone. -/
lemma recv_clock (hinv : RingInv rx) (h : buf = [] ∨ 0 < rx.ringCount)
    (hout : recv rx buf timeout world = .ok out) :
    out.world = world ∧ out.result ≠ none := by
  by_cases hbuf : buf = []
  · rw [recv, if_pos hbuf] at hout
    obtain rfl := Except.ok.inj hout
    exact ⟨rfl, by simp⟩
  · obtain ⟨f, -, -, hpop⟩ := popOne_eq hinv (h.resolve_left hbuf) buf (some default)
    simp only [recv, if_neg hbuf, if_pos (h.resolve_left hbuf), RecvState.returnFrame, hpop,
      ok_bind, pure_eq_ok] at hout
    obtain rfl := Except.ok.inj hout
    exact ⟨rfl, by simp⟩

/-- A call that still runs has come to the end of the world. -/
lemma recv_exhausted (hinv : RingInv rx) (hout : recv rx buf timeout world = .ok out)
    (hnone : out.result = none) : Exhausted out.world := by
  by_cases hquick : buf = [] ∨ 0 < rx.ringCount
  · exact absurd hnone (recv_clock hinv hquick hout).2
  obtain ⟨hbuf, hcount⟩ := not_or.mp hquick
  cases hclock : world.clock with
  | nil =>
      simp only [recv, if_neg hbuf, if_neg hcount, hclock, gt_iff_lt] at hout
      obtain rfl := Except.ok.inj hout
      exact .inl hclock
  | cons start clock =>
      exact (recv_ended hinv hbuf (Nat.eq_zero_of_not_pos hcount) hclock hout).exhausted hnone

/-- The readings that a call leaves are the last ones. -/
lemma recv_suffix (hinv : RingInv rx) (hout : recv rx buf timeout world = .ok out) :
    out.world.clock <:+ world.clock := by
  by_cases hquick : buf = [] ∨ 0 < rx.ringCount
  · rw [(recv_clock hinv hquick hout).1]
  obtain ⟨hbuf, hcount⟩ := not_or.mp hquick
  cases hclock : world.clock with
  | nil =>
      simp only [recv, if_neg hbuf, if_neg hcount, hclock, gt_iff_lt] at hout
      obtain rfl := Except.ok.inj hout
      exact (show world.clock = [] from hclock) ▸ List.suffix_rfl
  | cons start clock =>
      obtain ⟨last, -, heq⟩ :=
        (recv_ended hinv hbuf (Nat.eq_zero_of_not_pos hcount) hclock hout).clock
      rw [← hclock, heq]
      exact ⟨start :: (out.polled.map PollCall.now ++ last), rfl⟩

/-! ### The time of a call -/

/-- Polls that were in time bring the call no further than the deadline. -/
lemma swift_bound {δ left deadline : ℕ} {ps : List (PollCall × PollTime)} {last : List ℕ}
    (hlast : last.length ≤ 1) (hin : ∀ p ∈ ps, PollCall.InTime deadline p.1) {t : ℕ}
    (ht : t ≤ deadline + 2 * δ)
    (h : Swift δ left t (ps.map (fun p => p.1.now) ++ last) ps) : left ≤ deadline + 4 * δ := by
  induction ps generalizing t with
  | nil =>
      cases last with
      | nil =>
          rw [List.map_nil, List.append_nil, Swift] at h
          omega
      | cons r rs =>
          obtain rfl : rs = [] := by
            cases rs with
            | nil => rfl
            | cons r' rs =>
                simp only [List.length_cons] at hlast
                omega
          rw [List.map_nil, List.nil_append, Swift, Swift] at h
          omega
  | cons p ps ih =>
      rw [List.map_cons, List.cons_append, Swift] at h
      obtain ⟨-, hcalled, hreturned, hrest⟩ := h
      obtain ⟨-, hms⟩ := hin p (by simp)
      -- the poll was given no more than the time left at the reading before it
      exact ih (fun q hq => hin q (by simp [hq])) (by omega) hrest

/-- **A call is prompt.** It ends when the clock shows that the timeout has passed, and whatever
the number of its rounds, it takes no longer than the timeout and the delays of one round. -/
theorem recv_prompt (hr : Reachable rx) (hout : recv rx buf timeout world = .ok out) :
    (∀ start clock, world.clock = start :: clock → (∃ r ∈ clock, start + timeout ≤ r) →
      world.clock.length ≤ world.polls.length → world.clock.length ≤ world.captures.length →
        out.result ≠ none) ∧
    ∀ (tm : Timing world out) (δ : ℕ), tm.Prompt δ → tm.left ≤ tm.entered + timeout + 5 * δ := by
  by_cases hquick : buf = [] ∨ 0 < rx.ringCount
  · obtain ⟨hworld, hresult⟩ := recv_clock hr.inv hquick hout
    refine ⟨fun _ _ _ _ _ _ => hresult, fun tm δ _ => ?_⟩
    -- such a call reads no clock
    have hlen := congrArg List.length tm.read
    rw [hworld, List.length_cons, List.length_append] at hlen
    omega
  obtain ⟨hbuf, hcount⟩ := not_or.mp hquick
  have hempty : rx.ringCount = 0 := Nat.eq_zero_of_not_pos hcount
  constructor
  · rintro start clock hclock ⟨r, hr', hlate⟩ hpolls hcaptures hnone
    have hended := recv_ended hr.inv hbuf hempty hclock hout
    rcases hended.running hnone with htail | hlt | hlt
    · rw [hclock, List.tail_cons] at htail
      obtain ⟨p, hp, rfl⟩ := List.mem_map.mp (htail ▸ hr')
      exact absurd hlate (Nat.not_le_of_lt (hended.inTime p hp).1)
    · exact absurd hpolls (Nat.not_le_of_lt hlt)
    · exact absurd hcaptures (Nat.not_le_of_lt hlt)
  · rintro tm δ ⟨hstart, hswift⟩
    have hended := recv_ended hr.inv hbuf hempty tm.read hout
    obtain ⟨last, hlast, hclock⟩ := hended.clock
    have hreadings : tm.readings = out.polled.map PollCall.now ++ last := by
      have heq := tm.read.symm.trans hclock
      exact List.append_cancel_right (List.cons.inj heq).2
    have hlen : out.polled.length = tm.polls.length := tm.waited.length_eq
    have hfst : (out.polled.zip tm.polls).map (fun p => p.1.now) = out.polled.map PollCall.now := by
      have hmap := List.map_fst_zip hlen.le
      conv_rhs => rw [← hmap, List.map_map]
      rfl
    rw [hreadings, ← hfst] at hswift
    have hbound := swift_bound hlast
      (fun p hp => hended.inTime p.1 (List.of_mem_zip hp).1) (by omega) hswift
    omega

/-- A wait of 10 ms that an interrupt and a rejected packet break. -/
def broken : World := ⟨[0, 1, 4000000, 10000002], [.interrupted, .ready, .zero, .zero],
  [[⟨1, [0], by decide, by decide⟩], [], [], []]⟩

/-- It reports a timeout at the third reading. -/
lemma recv_broken : ∃ out, recv onWlan0 [0, 0] 10000000 broken = .ok out ∧
    out.polled = [⟨1, 9, .interrupted⟩, ⟨4000000, 6, .ready⟩] ∧ out.world.clock = [] :=
  ⟨_, rfl, rfl, rfl⟩

theorem onWlan0_prompt : ∃ out, recv onWlan0 [0, 0] 10000000 broken = .ok out ∧
    out.result ≠ none ∧ ∃ tm : Timing broken out, tm.left = 10000004 ∧
      tm.left ≤ tm.entered + 10000000 + 5 * 2 := by
  obtain ⟨out, hout, hpolled, hclock⟩ := recv_broken
  obtain ⟨hends, hprompt⟩ := recv_prompt (.opened opened_onWlan0) hout
  have hresult := hends 0 _ rfl ⟨10000002, by decide, by decide⟩ (by decide) (by decide)
  -- the second poll returns 1 ns behind its 6 ms
  let tm : Timing broken out :=
    { entered := 0
      start := 0
      readings := [1, 4000000, 10000002]
      polls := [⟨1, 4000000⟩, ⟨4000000, 10000001⟩]
      left := 10000004
      read := by rw [hclock]; rfl
      monotone := by decide
      waited := by rw [hpolled]; exact .cons nofun (.cons nofun .nil) }
  refine ⟨out, hout, hresult, tm, rfl, hprompt tm 2 ⟨Nat.zero_le _, ?_⟩⟩
  rw [hpolled]
  simp [tm, Swift]

end WfbRx

end WfbRs
