import WfbRs.Lib.Machine
import WfbRs.Rx.Runs

/-!
# The ring is a bounded queue

What the ring is for, without its arrays: a queue of frames with a bound, `fifoStep`.
Over any sequence of enqueues and guarded pops, the ring answers as this queue does, and
no operation touches a slot that holds another queued frame.
-/

namespace WfbRs

open Rust Descriptor RingBuffer

/-! ### The queue -/

/-- An operation: `enqueue_decoded` of a frame, or `pop_one` with the caller's buffer and
metadata. -/
inductive RingOp
  | enqueue (f : Frame)
  | pop (buf : List UInt8) (outMeta : WfbRxMeta)

/-- What a pop gives its caller: the buffer, the metadata and the number of bytes copied. -/
structure PopAnswer where
  buf : List UInt8
  outMeta : Option WfbRxMeta
  n : ℕ
deriving DecidableEq

/-- A frame popped into a buffer: as many bytes as fit are copied, the rest of the buffer stays,
and the metadata say whether bytes are missing. -/
def Frame.popInto (f : Frame) (buf : List UInt8) : PopAnswer :=
  let n := min f.payload.length buf.length
  ⟨f.payload.take n ++ buf.drop n, some { f.rxMeta with truncated := decide (n < f.payload.length) },
    n⟩

/-- The bounded queue: an enqueue appends unless `cap` frames are held, a pop removes the front. -/
def fifoStep (cap : ℕ) (q : List Frame) : RingOp → Option PopAnswer × List Frame
  | .enqueue f => (none, if q.length < cap then q ++ [f] else q)
  | .pop buf _ =>
      match q with
      | [] => (none, [])
      | f :: rest => (some (f.popInto buf), rest)

namespace WfbRx

/-! ### The ring -/

/-- One operation of the ring.  A pop is performed only on a ring that is not empty, as in
`recv`. -/
def ringStep (rx : WfbRx) : RingOp → Checked (Option PopAnswer × WfbRx)
  | .enqueue f => do return (none, ← enqueueDecoded rx f.payload f.rxMeta)
  | .pop buf outMeta => do
      if rx.ringCount > 0 then
        let out ← popOne rx buf (some outMeta)
        return (some ⟨out.buf, out.outMeta, out.n⟩, out.rx)
      return (none, rx)

/-- The slots of the queued frames, oldest first. -/
def occupied (rx : WfbRx) : List ℕ := contents rx.ringSize rx.ringHead rx.ringCount id

/-- Slot `i` keeps its stored length, its metadata and every byte of its part of the store. -/
structure SlotKept (rx rx' : WfbRx) (i : ℕ) : Prop where
  len : rx'.ringPayloadLen[i]? = rx.ringPayloadLen[i]?
  rxMeta : rx'.ringMeta[i]? = rx.ringMeta[i]?
  bytes : cell rx'.ringPayloadStore rx.maxPayload i rx.maxPayload =
    cell rx.ringPayloadStore rx.maxPayload i rx.maxPayload

/-- What an operation keeps. -/
structure RingStepSpec (rx : WfbRx) (op : RingOp) (rx' : WfbRx) : Prop where
  inv : RingInv rx'
  tail_lt : rx'.ringTail < rx'.ringSize
  config : SameConfig rx rx'
  /-- An enqueue into a full ring changes nothing at all. -/
  full : ∀ f, op = .enqueue f → rx.ringCount = rx.ringSize → rx' = rx
  /-- The slots of the frames queued before the operation are as they were. -/
  kept : ∀ i ∈ rx.occupied, SlotKept rx rx' i

variable {rx : WfbRx} {payload : List UInt8} {rxMeta : WfbRxMeta}

lemma SlotKept.refl (rx : WfbRx) (i : ℕ) : SlotKept rx rx i := ⟨rfl, rfl, rfl⟩

lemma slotKept_popped (rx : WfbRx) (i : ℕ) : SlotKept rx (popped rx) i := ⟨rfl, rfl, rfl⟩

/-- With room in the ring, the slot that is written next holds no queued frame. -/
lemma ne_tail_of_occupied (h : RingInv rx) (hroom : rx.ringCount < rx.ringSize) {i : ℕ}
    (hi : i ∈ rx.occupied) : i ≠ rx.ringTail := by
  obtain ⟨j, hj, rfl⟩ := List.mem_map.mp hi
  rw [h.tail_eq]
  exact add_mod_ne (List.mem_range.mp hj) hroom

/-- An enqueue writes one slot. -/
lemma slotKept_pushed (h : RingInv rx) (hlen : payload.length ≤ rx.maxPayload) {i : ℕ}
    (hi : i ≠ rx.ringTail) : SlotKept rx (pushed rx payload rxMeta) i where
  len := List.getElem?_set_ne (Ne.symm hi)
  rxMeta := List.getElem?_set_ne (Ne.symm hi)
  bytes := cell_writeCell_of_ne h.store_length h.tail_lt hlen hi le_rfl

/-- An enqueue is a step of the bounded queue. -/
lemma ringStep_enqueue (h : RingInv rx) {f : Frame} (hlen : f.payload.length ≤ rx.maxPayload) :
    ∃ rx', ringStep rx (.enqueue f) = .ok (none, rx') ∧
      rx'.queue = (fifoStep rx.ringSize rx.queue (.enqueue f)).2 ∧
      RingStepSpec rx (.enqueue f) rx' := by
  by_cases hroom : rx.ringCount < rx.ringSize
  · have hinv : RingInv (pushed rx f.payload f.rxMeta) := pushed_inv h hlen hroom
    refine ⟨pushed rx f.payload f.rxMeta, ?_, ?_, ?_⟩
    · rw [ringStep, enqueueDecoded_eq h hlen, if_pos hroom]
      rfl
    · rw [queue_pushed h hlen hroom, fifoStep, length_queue, if_pos hroom]
    · exact
        { inv := hinv
          tail_lt := hinv.tail_lt
          config := sameConfig_pushed rx f.payload f.rxMeta
          full := fun _ _ hfull => absurd hfull (Nat.ne_of_lt hroom)
          kept := fun i hi => slotKept_pushed h hlen (ne_tail_of_occupied h hroom hi) }
  · refine ⟨rx, ?_, ?_, ?_⟩
    · rw [ringStep, enqueueDecoded_eq h hlen, if_neg hroom]
      rfl
    · rw [fifoStep, length_queue, if_neg hroom]
    · exact
        { inv := h
          tail_lt := h.tail_lt
          config := SameConfig.refl rx
          full := fun _ _ _ => rfl
          kept := fun i _ => SlotKept.refl rx i }

/-- The answer of a pop is the front frame, as far as the buffer goes. -/
lemma popInto_eq (f : Frame) (buf : List UInt8) : f.popInto buf =
    ⟨f.payload.take buf.length ++ buf.drop f.payload.length, some (f.metaFor buf.length),
      min f.payload.length buf.length⟩ := by
  have hflag : (min f.payload.length buf.length < f.payload.length) ↔
      min f.payload.length buf.length ≠ f.payload.length := by omega
  simp only [Frame.popInto, Frame.metaFor, hflag]
  rcases Nat.le_total f.payload.length buf.length with hfit | hfit
  · rw [min_eq_left hfit, List.take_of_length_le le_rfl, List.take_of_length_le hfit]
  · rw [min_eq_right hfit, List.drop_eq_nil_of_le le_rfl, List.drop_eq_nil_of_le hfit]

/-- A guarded pop is a step of the bounded queue. -/
lemma ringStep_pop (h : RingInv rx) (buf : List UInt8) (outMeta : WfbRxMeta) :
    ∃ o rx', ringStep rx (.pop buf outMeta) = .ok (o, rx') ∧
      (o, rx'.queue) = fifoStep rx.ringSize rx.queue (.pop buf outMeta) ∧
      RingStepSpec rx (.pop buf outMeta) rx' := by
  by_cases hcount : rx.ringCount > 0
  · obtain ⟨f, hq, hinv, hpop⟩ := popOne_eq h hcount buf (some outMeta)
    refine ⟨some (f.popInto buf), popped rx, ?_, ?_, ?_⟩
    · rw [ringStep, if_pos hcount, hpop, popInto_eq]
      rfl
    · rw [hq, fifoStep]
    · exact
        { inv := hinv
          tail_lt := hinv.tail_lt
          config := sameConfig_popped rx
          full := fun _ hop => by cases hop
          kept := fun i _ => slotKept_popped rx i }
  · refine ⟨none, rx, ?_, ?_, ?_⟩
    · rw [ringStep, if_neg hcount]
      rfl
    · rw [queue_eq_nil (by omega), fifoStep]
    · exact
        { inv := h
          tail_lt := h.tail_lt
          config := SameConfig.refl rx
          full := fun _ hop => by cases hop
          kept := fun i _ => SlotKept.refl rx i }

/-- Every operation of the ring is a step of the bounded queue. -/
lemma ringStep_spec (h : RingInv rx) (op : RingOp)
    (hlen : ∀ f, op = .enqueue f → f.payload.length ≤ rx.maxPayload) :
    ∃ o rx', ringStep rx op = .ok (o, rx') ∧
      (o, rx'.queue) = fifoStep rx.ringSize rx.queue op ∧ RingStepSpec rx op rx' := by
  cases op with
  | enqueue f =>
      obtain ⟨rx', hstep, hq, hspec⟩ := ringStep_enqueue h (hlen f rfl)
      exact ⟨none, rx', hstep, by rw [hq]; rfl, hspec⟩
  | pop buf outMeta => exact ringStep_pop h buf outMeta

/-! ### Runs of the ring -/

/-- **The ring refines the bounded queue.** From an opened receiver of any ring size, over any
sequence of enqueues of payloads that fit a slot and of guarded pops, the ring answers as the
queue with that bound does and holds its frames; every step keeps the invariant, is the step of
the queue, and leaves the slots of the other queued frames alone. -/
theorem ring_refines_fifo {cfg : WfbRxConfig} {rx : WfbRx}
    (h : (WfbRx.open cfg).Returns (.ok rx)) (ops : List RingOp)
    (hops : ∀ f, .enqueue f ∈ ops → f.payload.length ≤ rx.maxPayload) :
    RingInv rx ∧ rx.queue = [] ∧ rx.ringSize = ringSizeOf cfg ∧
    ∃ r, Machine.run ringStep rx ops = .ok r ∧ r.events.map Machine.Event.input = ops ∧
      (r.events.map Machine.Event.output, r.final.queue) =
        Machine.exec (fifoStep (ringSizeOf cfg)) [] ops ∧
      ∀ e ∈ r.events, (e.output, e.after.queue) =
          fifoStep (ringSizeOf cfg) e.before.queue e.input ∧
        RingStepSpec e.before e.input e.after := by
  obtain ⟨hinv, hempty⟩ := opened_inv h
  have hsize : rx.ringSize = ringSizeOf cfg := by
    obtain ⟨-, -, fd, heq⟩ := returns_open.mp h
    rw [heq]
    rfl
  refine ⟨hinv, hempty, hsize, ?_⟩
  -- the ring is related to its queue, and keeps its size and the width of its slots
  obtain ⟨r, hrun, hinputs, houts, ⟨-, -, hfinal⟩, hall⟩ := Machine.run_simulates
    (fun rx' q => RingInv rx' ∧ SameConfig rx rx' ∧ rx'.queue = q)
    (fifoStep (ringSizeOf cfg)) id
    (fun e => (e.output, e.after.queue) = fifoStep (ringSizeOf cfg) e.before.queue e.input ∧
      RingStepSpec e.before e.input e.after)
    (fun op => ∀ f, op = .enqueue f → f.payload.length ≤ rx.maxPayload)
    (fun rx' q op ⟨hinv', hcfg', hq⟩ hp => by
      obtain ⟨o, rx'', hstep, hfifo, hspec⟩ := ringStep_spec hinv' op
        fun f hf => hcfg'.maxPayload ▸ hp f hf
      rw [hcfg'.ringSize, hsize] at hfifo
      have hout : o = (fifoStep (ringSizeOf cfg) q op).1 := by
        rw [← hq, ← hfifo]
      have hqueue : rx''.queue = (fifoStep (ringSizeOf cfg) q op).2 := by
        rw [← hq, ← hfifo]
      exact ⟨o, rx'', hstep, hout, ⟨hspec.inv, hcfg'.trans hspec.config, hqueue⟩, hfifo, hspec⟩)
    ⟨hinv, SameConfig.refl rx, hempty⟩ ops fun op hop f hf => hops f (hf ▸ hop)
  refine ⟨r, hrun, hinputs, ?_, hall⟩
  rw [hfinal]
  exact Prod.ext houts rfl

/-- Three frames, of which the second is popped into a buffer that is too short. -/
theorem onWlan0_refines_fifo : ∃ r,
    Machine.run ringStep onWlan0 [.enqueue ⟨[1, 2, 3], { seq := 7 }⟩, .pop [9, 9, 9, 9] default,
      .enqueue ⟨[4, 5], { seq := 8 }⟩, .enqueue ⟨[], { seq := 9 }⟩, .pop [9] default] = .ok r ∧
    r.events.map Machine.Event.output =
      [none, some ⟨[1, 2, 3, 9], some { seq := 7 }, 3⟩, none, none,
        some ⟨[4], some { seq := 8, truncated := true }, 1⟩] ∧
    r.final.queue = [⟨[], { seq := 9 }⟩] := by
  obtain ⟨-, -, -, r, hrun, -, hexec, -⟩ := ring_refines_fifo opened_onWlan0
    [.enqueue ⟨[1, 2, 3], { seq := 7 }⟩, .pop [9, 9, 9, 9] default,
      .enqueue ⟨[4, 5], { seq := 8 }⟩, .enqueue ⟨[], { seq := 9 }⟩, .pop [9] default]
    (by
      intro f hf
      simp only [List.mem_cons, RingOp.enqueue.injEq, reduceCtorEq, List.not_mem_nil, or_false,
        false_or] at hf
      rcases hf with rfl | rfl | rfl <;> decide)
  exact ⟨r, hrun, congrArg Prod.fst hexec, congrArg Prod.snd hexec⟩

end WfbRx

end WfbRs
