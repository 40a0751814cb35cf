import WfbRs.Rx.Packet

/-!
# The receive call (`drain_pcap_nonblock` and `recv` of `rx.rs`)

`recv` reads a clock, polls the capture descriptor and drains the capture.  What these find
is given by a `World`: the readings of the clock, the outcomes of the polls, and the packets
that each drain finds before the capture reports an error.  A call that needs more than the
world has left is still running, and has no result.
-/

namespace WfbRs

open Rust RingBuffer

/-! ### The world of a call -/

/-- A packet of the capture library: its header's `caplen` and its bytes. -/
structure CapturedPacket where
  caplen : ℕ
  data : List UInt8
  /-- The library hands out at least the bytes it announces. -/
  caplen_le : caplen ≤ data.length
  /-- The snapshot length set by `open`. -/
  caplen_max : caplen ≤ 65535

/-- The captured bytes. -/
def CapturedPacket.bytes (p : CapturedPacket) : List UInt8 := p.data.take p.caplen

/-- What `poll` answers: a positive count, zero, `EINTR` or another error. -/
inductive PollOutcome
  | ready
  | zero
  | interrupted
  | failed (errno : ℤ)
deriving DecidableEq, Repr

structure World where
  /-- Readings of the clock, in nanoseconds. -/
  clock : List ℕ
  polls : List PollOutcome
  /-- The packets each drain finds. -/
  captures : List (List CapturedPacket)

/-- A call of `poll`: the clock reading behind it, its timeout in milliseconds, its outcome. -/
structure PollCall where
  now : ℕ
  remainingMs : ℕ
  outcome : PollOutcome
deriving DecidableEq, Repr

/-- A drain of the capture: how many frames the ring held before it, and what it found. -/
structure Drain where
  queued : ℕ
  batch : List CapturedPacket

/-- What `recv` returns. -/
abbrev RecvResult : Type := Except WfbError (Option (ℕ × WfbRxMeta))

/-- What a call leaves.  The result is `none` while the call still runs. -/
structure RecvOut where
  rx : WfbRx
  buf : List UInt8
  world : World
  polled : List PollCall := []
  drained : List Drain := []
  result : Option RecvResult

namespace WfbRx

/-! ### The code -/

/-- `drain_pcap_nonblock`; the capture reports an error behind the last packet. -/
def drainPcapNonblock (rx : WfbRx) : List CapturedPacket → Checked WfbRx
  | [] => return rx
  | packet :: rest => do
      let data ← slice packet.data 0 packet.caplen
      let rx ← parseAndEnqueueOnePacket rx data
      drainPcapNonblock rx rest

/-- The state of the loop of `recv`. -/
structure RecvState where
  rx : WfbRx
  world : World
  polled : List PollCall
  drained : List Drain

/-- Leave `recv` without touching the buffer. -/
def RecvState.leave (s : RecvState) (buf : List UInt8) (result : Option RecvResult) : RecvOut :=
  ⟨s.rx, buf, s.world, s.polled, s.drained, result⟩

/-- Pop a frame into the buffer and return it. -/
def RecvState.returnFrame (s : RecvState) (buf : List UInt8) : Checked RecvOut := do
  let out ← popOne s.rx buf (some default)
  return ⟨out.rx, out.buf, s.world, s.polled, s.drained,
    some (.ok (some (out.n, out.outMeta.getD default)))⟩

/-- One round of the loop of `recv`. -/
def recvRound (buf : List UInt8) (timeout start : ℕ) (s : RecvState) :
    Checked (Flow RecvState RecvOut) := do
  if s.rx.ringCount > 0 then return .ret (← s.returnFrame buf)
  match s.world.clock with
  | [] => return .ret (s.leave buf none)
  | now :: clock =>
      let s := { s with world := { s.world with clock := clock } }
      -- the clock is monotone; an elapsed time saturates at zero
      let elapsed := now - start
      if elapsed ≥ timeout then return .ret (s.leave buf (some (.ok none)))
      let remainingMs := (← usub timeout elapsed) / 1000000
      let remainingMs := min remainingMs (2 ^ 31 - 1)
      match s.world.polls with
      | [] => return .ret (s.leave buf none)
      | outcome :: polls =>
          let s := { s with
            world := { s.world with polls := polls }
            polled := s.polled ++ [⟨now, remainingMs, outcome⟩] }
          match outcome with
          | .interrupted => return .next s
          | .failed errno => return .ret (s.leave buf (some (.error (.io errno))))
          | .zero => return .ret (s.leave buf (some (.ok none)))
          | .ready =>
              match s.world.captures with
              | [] => return .ret (s.leave buf none)
              | batch :: captures =>
                  let rx ← drainPcapNonblock s.rx batch
                  return .next { s with
                    rx := rx
                    world := { s.world with captures := captures }
                    drained := s.drained ++ [⟨s.rx.ringCount, batch⟩] }

/-- `recv`, with the timeout in nanoseconds. -/
def recv (rx : WfbRx) (buf : List UInt8) (timeout : ℕ) (world : World) : Checked RecvOut := do
  let s : RecvState := ⟨rx, world, [], []⟩
  if buf = [] then
    return s.leave buf (some (.error (.invalidArgument "recv buffer must be non-empty")))
  if rx.ringCount > 0 then return ← s.returnFrame buf
  match world.clock with
  | [] => return s.leave buf none
  | start :: clock =>
      let s := { s with world := { world with clock := clock } }
      match ← loopN (recvRound buf timeout start) (clock.length + 1) s with
      | .inr out => return out
      -- the loop has no `break`
      | .inl s => return s.leave buf none

/-! ### A drain -/

/-- The frames of the packets of a batch that pass the checks. -/
def acceptedFrames (rx : WfbRx) (batch : List CapturedPacket) : List Frame :=
  batch.filterMap fun p => acceptedFrame rx.ignoreSelfInjected rx.maxPayload p.bytes

/-- The frames that a drain of an empty ring keeps. -/
def kept (rx : WfbRx) (batch : List CapturedPacket) : List Frame :=
  (rx.acceptedFrames batch).take rx.ringSize

lemma SameConfig.acceptedFrames {rx rx' : WfbRx} (h : SameConfig rx rx') :
    rx'.acceptedFrames = rx.acceptedFrames := by
  funext batch
  rw [WfbRx.acceptedFrames, WfbRx.acceptedFrames, h.ignore, h.maxPayload]

lemma SameConfig.kept {rx rx' : WfbRx} (h : SameConfig rx rx') : rx'.kept = rx.kept := by
  funext batch
  rw [WfbRx.kept, WfbRx.kept, h.acceptedFrames, h.ringSize]

/-- A captured packet is parsed without a fault. -/
lemma parse_bytes (p : CapturedPacket) : radiotapMetaFromPacket p.bytes = .ok (decode p.bytes) := by
  refine radiotapMetaFromPacket_eq (presentFits_of_length ?_)
  have hmax := p.caplen_max
  simp only [CapturedPacket.bytes, List.length_take]
  omega

lemma parseAndEnqueueOnePacket_bytes {rx : WfbRx} (hinv : RingInv rx) (p : CapturedPacket) :
    parseAndEnqueueOnePacket rx p.bytes = .ok (received rx p.bytes) :=
  parseAndEnqueueOnePacket_eq hinv (parse_bytes p)

/-- A drain offers the accepted frames of its batch to the queue, in order. -/
lemma drainPcapNonblock_spec {rx : WfbRx} (hinv : RingInv rx) (batch : List CapturedPacket) :
    ∃ rx', drainPcapNonblock rx batch = .ok rx' ∧ RingInv rx' ∧ SameConfig rx rx' ∧
      rx'.queue = (rx.acceptedFrames batch).foldl (offer rx.ringSize) rx.queue := by
  induction batch generalizing rx with
  | nil => exact ⟨rx, rfl, hinv, SameConfig.refl rx, rfl⟩
  | cons p rest ih =>
      obtain ⟨hinv₁, hcfg₁, hq₁⟩ := received_spec hinv p.bytes
      obtain ⟨rx', hdrain, hinv', hcfg', hq'⟩ := ih hinv₁
      refine ⟨rx', ?_, hinv', hcfg₁.trans hcfg', ?_⟩
      · have hbytes : slice p.data 0 p.caplen = .ok p.bytes := by
          rw [slice_ok (Nat.zero_le _) p.caplen_le]
          rfl
        rw [drainPcapNonblock, hbytes, ok_bind, parseAndEnqueueOnePacket_bytes hinv, ok_bind,
          hdrain]
      · rw [hq', hq₁, hcfg₁.acceptedFrames, hcfg₁.ringSize]
        simp only [WfbRx.acceptedFrames, List.filterMap_cons]
        cases acceptedFrame rx.ignoreSelfInjected rx.maxPayload p.bytes <;> rfl

/-- From an empty ring, a drain keeps the first frames that the ring has room for. -/
lemma drainPcapNonblock_empty {rx : WfbRx} (hinv : RingInv rx) (hempty : rx.queue = [])
    (batch : List CapturedPacket) :
    ∃ rx', drainPcapNonblock rx batch = .ok rx' ∧ RingInv rx' ∧ SameConfig rx rx' ∧
      rx'.queue = rx.kept batch := by
  obtain ⟨rx', hdrain, hinv', hcfg, hq⟩ := drainPcapNonblock_spec hinv batch
  refine ⟨rx', hdrain, hinv', hcfg, ?_⟩
  rw [hq, hempty, foldl_offer _ _ _ (Nat.zero_le _)]
  rfl

/-! ### A call -/

/-- How a call is answered, given the frame it took from the ring. -/
inductive Answer (rx : WfbRx) (buf : List UInt8) (world : World) (out : RecvOut) :
    Option Frame → Prop
  /-- A frame: as much of its payload as fits, with its own metadata. -/
  | frame (f : Frame)
      (result : out.result =
        some (.ok (some (min f.payload.length buf.length, f.metaFor buf.length))))
      (buf_eq : out.buf = f.payload.take buf.length ++ buf.drop f.payload.length) :
      Answer rx buf world out (some f)
  /-- A timeout, with nothing queued. -/
  | timeout (result : out.result = some (.ok none)) (queue : out.rx.queue = [])
      (buf_eq : out.buf = buf) : Answer rx buf world out none
  /-- A failed poll, with nothing queued. -/
  | failed (errno : ℤ) (result : out.result = some (.error (.io errno)))
      (queue : out.rx.queue = []) (buf_eq : out.buf = buf) : Answer rx buf world out none
  /-- An empty buffer; nothing has happened. -/
  | rejected (empty : buf = [])
      (eq : out = ⟨rx, buf, world, [], [],
        some (.error (.invalidArgument "recv buffer must be non-empty"))⟩) :
      Answer rx buf world out none
  /-- The world has ended before the call. -/
  | running (result : out.result = none) (buf_eq : out.buf = buf) : Answer rx buf world out none

/-- What a call does to the queue. -/
structure RecvSpec (rx : WfbRx) (buf : List UInt8) (world : World) (out : RecvOut) : Prop where
  inv : RingInv out.rx
  config : SameConfig rx out.rx
  /-- The drains take the batches of the world in order. -/
  captures : world.captures = out.drained.map Drain.batch ++ out.world.captures
  /-- Every drain starts with an empty ring. -/
  empty : ∀ d ∈ out.drained, d.queued = 0
  /-- The frame taken and the frames left are those that were queued and those the drains kept. -/
  frames : ∃ f, Answer rx buf world out f ∧
    f.toList ++ out.rx.queue = rx.queue ++ out.drained.flatMap fun d => rx.kept d.batch

/-- The invariant of the loop of `recv`. -/
structure RecvInv (rx : WfbRx) (world : World) (s : RecvState) : Prop where
  inv : RingInv s.rx
  config : SameConfig rx s.rx
  captures : world.captures = s.drained.map Drain.batch ++ s.world.captures
  empty : ∀ d ∈ s.drained, d.queued = 0
  frames : s.rx.queue = rx.queue ++ s.drained.flatMap fun d => rx.kept d.batch

variable {rx : WfbRx} {world : World} {buf : List UInt8} {s : RecvState}

lemma queue_eq_nil (h : rx.ringCount = 0) : rx.queue = [] := by
  rw [← List.length_eq_zero_iff, length_queue, h]

/-- Returning a frame. -/
lemma RecvInv.returnFrame (h : RecvInv rx world s) (buf : List UInt8) (hcount : 0 < s.rx.ringCount) :
    ∃ out, s.returnFrame buf = .ok out ∧ RecvSpec rx buf world out := by
  obtain ⟨f, hq, hinv, hpop⟩ := popOne_eq h.inv hcount buf (some default)
  refine ⟨_, by rw [RecvState.returnFrame, hpop]; rfl, ?_⟩
  exact
    { inv := hinv
      config := h.config.trans (sameConfig_popped s.rx)
      captures := h.captures
      empty := h.empty
      frames := ⟨some f, .frame f rfl rfl, by
        rw [← h.frames, hq]
        rfl⟩ }

/-- Leaving the loop with nothing queued. -/
lemma RecvInv.leave (h : RecvInv rx world s) {result : Option RecvResult}
    (hanswer : Answer rx buf world (s.leave buf result) none) :
    RecvSpec rx buf world (s.leave buf result) where
  inv := h.inv
  config := h.config
  captures := h.captures
  empty := h.empty
  frames := ⟨none, hanswer, h.frames⟩

/-- One round keeps the invariant and takes a reading of the clock, or ends the call. -/
lemma recvRound_spec (timeout start : ℕ) (h : RecvInv rx world s) :
    (∃ s', recvRound buf timeout start s = .ok (.next s') ∧ RecvInv rx world s' ∧
        s'.world.clock.length < s.world.clock.length) ∨
      ∃ out, recvRound buf timeout start s = .ok (.ret out) ∧ RecvSpec rx buf world out := by
  obtain ⟨rx₁, ⟨clock, polls, captures⟩, polled, drained⟩ := s
  by_cases hcount : rx₁.ringCount > 0
  · obtain ⟨out, hout, hspec⟩ := h.returnFrame buf hcount
    exact .inr ⟨out, by rw [recvRound, if_pos hcount, hout]; rfl, hspec⟩
  have hqueue : rx₁.queue = [] := queue_eq_nil (by omega)
  have hkeep : ∀ clock' polls' polled', RecvInv rx world
      ⟨rx₁, ⟨clock', polls', captures⟩, polled', drained⟩ :=
    fun _ _ _ => ⟨h.inv, h.config, h.captures, h.empty, h.frames⟩
  simp only [recvRound, if_neg hcount]
  cases clock with
  | nil => exact .inr ⟨_, rfl, h.leave (.running rfl rfl)⟩
  | cons now clock =>
      simp only
      by_cases helapsed : now - start ≥ timeout
      · rw [if_pos helapsed]
        exact .inr ⟨_, rfl, (hkeep _ _ _).leave (.timeout rfl hqueue rfl)⟩
      rw [if_neg helapsed, usub_ok (by omega), ok_bind]
      cases polls with
      | nil => exact .inr ⟨_, rfl, (hkeep _ _ _).leave (.running rfl rfl)⟩
      | cons outcome polls =>
          cases outcome with
          | interrupted => exact .inl ⟨_, rfl, hkeep _ _ _, Nat.lt_succ_self _⟩
          | failed errno =>
              exact .inr ⟨_, rfl, (hkeep _ _ _).leave (.failed errno rfl hqueue rfl)⟩
          | zero => exact .inr ⟨_, rfl, (hkeep _ _ _).leave (.timeout rfl hqueue rfl)⟩
          | ready =>
              cases captures with
              | nil => exact .inr ⟨_, rfl, (hkeep _ _ _).leave (.running rfl rfl)⟩
              | cons batch captures =>
                  -- the ring is empty here, so the drain keeps what fits into an empty ring
                  obtain ⟨rx', hdrain, hinv', hcfg', hq'⟩ :=
                    drainPcapNonblock_empty h.inv hqueue batch
                  have hframes : rx₁.queue = rx.queue ++ _ := h.frames
                  rw [hqueue] at hframes
                  refine .inl ⟨_, by simp only [hdrain, ok_bind]; rfl, ?_, Nat.lt_succ_self _⟩
                  refine ⟨hinv', h.config.trans hcfg', ?_, ?_, ?_⟩
                  · rw [h.captures, List.map_append, List.append_assoc]
                    rfl
                  · intro d hd
                    rcases List.mem_append.mp hd with hd | hd
                    · exact h.empty d hd
                    · rw [List.mem_singleton.mp hd]
                      exact Nat.eq_zero_of_not_pos hcount
                  · rw [hq', h.config.kept, List.flatMap_append, ← List.append_assoc, ← hframes]
                    simp

/-- **A call of `recv`** does not fault, and loses, duplicates or reorders no frame that a drain
has kept. -/
lemma recv_spec (hinv : RingInv rx) (buf : List UInt8) (timeout : ℕ) (world : World) :
    ∃ out, recv rx buf timeout world = .ok out ∧ RecvSpec rx buf world out := by
  have hstart : RecvInv rx world ⟨rx, world, [], []⟩ :=
    ⟨hinv, SameConfig.refl rx, rfl, by simp, by simp⟩
  by_cases hbuf : buf = []
  · exact ⟨_, by rw [recv, if_pos hbuf]; rfl, hstart.leave (.rejected hbuf rfl)⟩
  by_cases hcount : rx.ringCount > 0
  · obtain ⟨out, hout, hspec⟩ := hstart.returnFrame buf hcount
    exact ⟨out, by simp only [recv, if_neg hbuf, if_pos hcount, hout, pure_eq_ok], hspec⟩
  simp only [recv, if_neg hbuf, if_neg hcount]
  cases world.clock with
  | nil => exact ⟨_, rfl, hstart.leave (.running rfl rfl)⟩
  | cons start clock =>
      have hstart' : RecvInv rx world ⟨rx, { world with clock := clock }, [], []⟩ :=
        ⟨hinv, SameConfig.refl rx, rfl, by simp, by simp⟩
      obtain ⟨r, hloop, out, rfl, hspec⟩ : ∃ r, loopN (recvRound buf timeout start)
          (clock.length + 1) ⟨rx, { world with clock := clock }, [], []⟩ = .ok r ∧
          ∃ out, r = .inr out ∧ RecvSpec rx buf world out := by
        refine loopN_spec (RecvInv rx world) (fun s => s.world.clock.length) _ ?_ _ _ hstart'
          (Nat.lt_succ_self _)
        intro s hs
        rcases recvRound_spec timeout start hs with ⟨s', hround, hs', hlt⟩ | ⟨out, hround, hspec⟩
        · exact .inl ⟨s', hround, hs', hlt⟩
        · exact .inr (.inr ⟨out, hround, out, rfl, hspec⟩)
      exact ⟨out, by simp only [hloop, ok_bind]; rfl, hspec⟩

end WfbRx

end WfbRs
