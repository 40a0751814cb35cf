import WfbRs.Proto
import WfbRs.Lib.Descriptor
import WfbRs.Lib.RingBuffer

/-!
# The receiver and its ring (`WfbRx` of `rx.rs`)

The receiver's state, `WfbRx::open`, and the two operations on its ring of decoded frames.
The three parallel arrays of the ring are read as one queue of frames, `WfbRx.queue`; under
the invariant `RingInv` an enqueue is a bounded append and a pop removes the front.
-/

namespace WfbRs

open Rust Descriptor RingBuffer

/-! ### The receiver -/

/-- An open capture: its descriptor and the filter program installed on it. -/
structure Capture where
  fd : ℕ
  filterExp : String

structure WfbRx where
  iface : String
  ignoreSelfInjected : Bool
  maxPayload : ℕ
  ringSize : ℕ
  ringCount : ℕ
  ringHead : ℕ
  ringTail : ℕ
  ringPayloadStore : List UInt8
  ringPayloadLen : List ℕ
  ringMeta : List WfbRxMeta
  fd : ℕ
  pcap : Capture

/-- `{:08x}`. -/
def hex08 (n : UInt32) : String :=
  String.ofList ((List.range 8).map fun i => Nat.digitChar (n.toNat / 16 ^ (7 - i) % 16))

/-- The filter expression that `WfbRx::open` installs. -/
def filterExp (streamId : UInt32) : String :=
  "ether[0x0a:2]==0x5742 && ether[0x0c:4] == 0x" ++ hex08 streamId

namespace WfbRx

/-- Dropping a `pcap::Capture` closes its descriptor. -/
def dropCapture (fd : ℕ) : SysProg Unit := .release fd (.done ())

/-- `cfg.ring_size`, defaulted and clamped. -/
def ringSizeOf (cfg : WfbRxConfig) : ℕ :=
  let ringSize := if cfg.ringSize = 0 then 16 else cfg.ringSize
  max 2 (min ringSize 128)

/-- The receiver that `open` builds around a configured capture. -/
def fresh (cfg : WfbRxConfig) (cap : Capture) : WfbRx where
  iface := cfg.iface
  ignoreSelfInjected := cfg.ignoreSelfInjected
  maxPayload := computeMaxPayload
  ringSize := ringSizeOf cfg
  ringCount := 0
  ringHead := 0
  ringTail := 0
  ringPayloadStore := List.replicate (ringSizeOf cfg * computeMaxPayload) 0
  ringPayloadLen := List.replicate (ringSizeOf cfg) 0
  ringMeta := List.replicate (ringSizeOf cfg) default
  fd := cap.fd
  pcap := cap

/-- `WfbRx::open`.  The calls are `Capture::from_device`, `open`, `setnonblock` and `filter`;
an error after the capture is open drops it. -/
def «open» (cfg : WfbRxConfig) : SysProg (Except WfbError WfbRx) := do
  if cfg.iface = "" then return .error (.invalidArgument "iface is empty")
  if cfg.streamId = 0 then return .error (.invalidArgument "stream_id=0 is disallowed")
  if computeMaxPayload < 1 then return .error (.invalidArgument "max payload too small")
  match ← (.call .done : SysProg (Except SysError ℤ)) with
  | .error e => return .error (.pcap e.text)
  | .ok _ =>
      match ← (.acquire .done : SysProg (Except SysError ℕ)) with
      | .error e => return .error (.pcap e.text)
      | .ok fd =>
          match ← (.call .done : SysProg (Except SysError ℤ)) with
          | .error e =>
              dropCapture fd
              return .error (.pcap e.text)
          | .ok _ =>
              match ← (.call .done : SysProg (Except SysError ℤ)) with
              | .error e =>
                  dropCapture fd
                  return .error (.pcap e.text)
              | .ok _ => return .ok (fresh cfg ⟨fd, filterExp cfg.streamId⟩)

/-- `Drop for WfbRx`, and the drop of its capture behind it. -/
def drop (rx : WfbRx) : SysProg Unit := do
  (.release rx.fd (.done ()) : SysProg Unit)
  dropCapture rx.pcap.fd

/-- What a successful `open` returns. -/
lemma returns_open {cfg : WfbRxConfig} {rx : WfbRx} : (WfbRx.open cfg).Returns (.ok rx) ↔
    cfg.iface ≠ "" ∧ cfg.streamId ≠ 0 ∧ ∃ fd, rx = fresh cfg ⟨fd, filterExp cfg.streamId⟩ := by
  unfold WfbRx.open
  by_cases hiface : cfg.iface = ""
  · simp [hiface, Prog.returns_done]
  by_cases hstream : cfg.streamId = 0
  · simp [hiface, hstream, Prog.returns_done]
  simp only [hiface, hstream, computeMaxPayload_eq, Nat.not_lt_of_le (show 1 ≤ 4013 by omega),
    if_false, Prog.call_bind, Prog.acquire_bind, Prog.done_bind, Prog.returns_call,
    ne_eq, not_false_eq_true, true_and]
  constructor
  · rintro ⟨r₁, h⟩
    rcases r₁ with e | _
    · simp [Prog.returns_done] at h
    simp only [Prog.returns_acquire] at h
    obtain ⟨r₂, h⟩ := h
    rcases r₂ with e | fd
    · simp [Prog.returns_done] at h
    simp only [Prog.returns_call] at h
    obtain ⟨r₃, h⟩ := h
    rcases r₃ with e | _
    · simp [dropCapture, Prog.returns_release, Prog.returns_done] at h
    simp only [Prog.returns_call] at h
    obtain ⟨r₄, h⟩ := h
    rcases r₄ with e | _
    · simp [dropCapture, Prog.returns_release, Prog.returns_done] at h
    exact ⟨fd, by simpa [Prog.returns_done] using h⟩
  · rintro ⟨fd, rfl⟩
    exact ⟨.ok 0, .acquire (.ok fd) (.call (.ok 0) (.call (.ok 0) (.done _)))⟩

/-! ### The ring -/

def enqueueDecoded (rx : WfbRx) (payload : List UInt8) (rxMeta : WfbRxMeta) : Checked WfbRx := do
  if rx.ringCount ≥ rx.ringSize then return rx
  let idx := rx.ringTail
  let rx := { rx with ringPayloadLen := ← setIndex rx.ringPayloadLen idx payload.length }
  let rx := { rx with ringMeta := ← setIndex rx.ringMeta idx rxMeta }
  let dstOff ← umul idx rx.maxPayload
  let rx := { rx with
    ringPayloadStore :=
      ← copyFromSlice rx.ringPayloadStore dstOff (← uadd dstOff payload.length) payload }
  let rx := { rx with ringTail := ← urem (← uadd rx.ringTail 1) rx.ringSize }
  return { rx with ringCount := ← uadd rx.ringCount 1 }

/-- What `pop_one` leaves: the receiver, the caller's buffer and metadata, and the number of
bytes copied. -/
structure Popped where
  rx : WfbRx
  buf : List UInt8
  outMeta : Option WfbRxMeta
  n : ℕ

def popOne (rx : WfbRx) (buf : List UInt8) (outMeta : Option WfbRxMeta) : Checked Popped := do
  let idx := rx.ringHead
  let payloadLen ← index rx.ringPayloadLen idx
  let toCopy := min payloadLen buf.length
  let srcOff ← umul idx rx.maxPayload
  let src ← slice rx.ringPayloadStore srcOff (← uadd srcOff toCopy)
  let buf ← copyFromSlice buf 0 toCopy src
  let outMeta ← match outMeta with
    | some _ => do
        let rxMeta ← index rx.ringMeta idx
        pure (some { rxMeta with truncated := decide (toCopy ≠ payloadLen) })
    | none => pure none
  let rx := { rx with ringHead := ← urem (← uadd rx.ringHead 1) rx.ringSize }
  let rx := { rx with ringCount := ← usub rx.ringCount 1 }
  return ⟨rx, buf, outMeta, toCopy⟩

end WfbRx

/-! ### The ring as a queue of frames -/

/-- A decoded frame waiting in the ring. -/
structure Frame where
  payload : List UInt8
  rxMeta : WfbRxMeta
deriving DecidableEq

/-- The caller's metadata after a pop: the frame's own, with `truncated` set when the buffer
is too short for the payload. -/
def Frame.metaFor (f : Frame) (bufLen : ℕ) : WfbRxMeta :=
  { f.rxMeta with truncated := decide (min f.payload.length bufLen ≠ f.payload.length) }

namespace WfbRx

/-- What the three arrays hold in one slot. -/
def slot (rx : WfbRx) (i : ℕ) : Frame where
  payload := cell rx.ringPayloadStore rx.maxPayload i (rx.ringPayloadLen.getD i 0)
  rxMeta := rx.ringMeta.getD i default

/-- The frames in the ring, oldest first. -/
def queue (rx : WfbRx) : List Frame := contents rx.ringSize rx.ringHead rx.ringCount rx.slot

/-- The ring invariant. -/
structure RingInv (rx : WfbRx) : Prop where
  size_pos : 0 < rx.ringSize
  size_le : rx.ringSize ≤ 128
  max_eq : rx.maxPayload = computeMaxPayload
  head_lt : rx.ringHead < rx.ringSize
  count_le : rx.ringCount ≤ rx.ringSize
  tail_eq : rx.ringTail = (rx.ringHead + rx.ringCount) % rx.ringSize
  store_length : rx.ringPayloadStore.length = rx.ringSize * rx.maxPayload
  len_length : rx.ringPayloadLen.length = rx.ringSize
  meta_length : rx.ringMeta.length = rx.ringSize
  len_le : ∀ n ∈ rx.ringPayloadLen, n ≤ rx.maxPayload

@[simp] lemma length_queue (rx : WfbRx) : rx.queue.length = rx.ringCount := by simp [queue]

lemma ringCount_pos {rx : WfbRx} {f : Frame} (h : rx.queue.head? = some f) : 0 < rx.ringCount := by
  rw [← length_queue]
  exact List.length_pos_of_mem (List.mem_of_mem_head? h)

lemma ringSizeOf_bounds (cfg : WfbRxConfig) : 2 ≤ ringSizeOf cfg ∧ ringSizeOf cfg ≤ 128 := by
  simp only [ringSizeOf]
  omega

lemma fresh_inv (cfg : WfbRxConfig) (cap : Capture) : RingInv (fresh cfg cap) where
  size_pos := by
    have h := ringSizeOf_bounds cfg
    simp only [fresh]
    omega
  size_le := (ringSizeOf_bounds cfg).2
  max_eq := rfl
  head_lt := by
    have h := ringSizeOf_bounds cfg
    simp only [fresh]
    omega
  count_le := by simp [fresh]
  tail_eq := by simp [fresh]
  store_length := by simp [fresh]
  len_length := by simp [fresh]
  meta_length := by simp [fresh]
  len_le := by
    intro n hn
    rw [(List.mem_replicate.mp hn).2]
    exact Nat.zero_le _

@[simp] lemma queue_fresh (cfg : WfbRxConfig) (cap : Capture) : (fresh cfg cap).queue = [] := rfl

/-- The receiver after an enqueue into a ring with room. -/
def pushed (rx : WfbRx) (payload : List UInt8) (rxMeta : WfbRxMeta) : WfbRx :=
  { rx with
    ringPayloadLen := rx.ringPayloadLen.set rx.ringTail payload.length
    ringMeta := rx.ringMeta.set rx.ringTail rxMeta
    ringPayloadStore := writeCell rx.ringPayloadStore rx.maxPayload rx.ringTail payload
    ringTail := (rx.ringTail + 1) % rx.ringSize
    ringCount := rx.ringCount + 1 }

/-- The receiver after a pop. -/
def popped (rx : WfbRx) : WfbRx :=
  { rx with ringHead := (rx.ringHead + 1) % rx.ringSize, ringCount := rx.ringCount - 1 }

variable {rx : WfbRx} {payload : List UInt8} {rxMeta : WfbRxMeta}

lemma RingInv.tail_lt (h : RingInv rx) : rx.ringTail < rx.ringSize := by
  rw [h.tail_eq]
  exact Nat.mod_lt _ h.size_pos

/-- Offsets into the store fit the machine word. -/
lemma RingInv.offset_lt (h : RingInv rx) {i len : ℕ} (hi : i < rx.ringSize)
    (hlen : len ≤ rx.maxPayload) :
    i * rx.maxPayload + len ≤ rx.ringPayloadStore.length ∧
      i * rx.maxPayload + len < usizeBound := by
  have hend := cell_end_le hi hlen
  have hle : rx.ringSize * rx.maxPayload ≤ 128 * 4013 := by
    rw [h.max_eq]
    exact Nat.mul_le_mul_right _ h.size_le
  exact ⟨by rw [h.store_length]; exact hend, lt_usizeBound (by omega)⟩

/-- `enqueue_decoded` does not fault; it appends, or drops the frame when the ring is full. -/
lemma enqueueDecoded_eq (h : RingInv rx) (hlen : payload.length ≤ rx.maxPayload) :
    enqueueDecoded rx payload rxMeta =
      .ok (if rx.ringCount < rx.ringSize then pushed rx payload rxMeta else rx) := by
  by_cases hfull : rx.ringCount ≥ rx.ringSize
  · rw [enqueueDecoded, if_pos hfull, if_neg (Nat.not_lt_of_le hfull)]
    rfl
  · have htail := h.tail_lt
    have hsize := h.size_le
    obtain ⟨hstore, hbound⟩ := h.offset_lt htail hlen
    have hmul : rx.ringTail * rx.maxPayload < usizeBound := by omega
    have hadd : rx.ringTail + 1 < usizeBound := lt_usizeBound (by omega)
    have hcount : rx.ringCount + 1 < usizeBound := lt_usizeBound (by omega)
    simp only [enqueueDecoded, if_neg hfull, if_pos (Nat.lt_of_not_le hfull),
      setIndex_ok (h.len_length ▸ htail), setIndex_ok (h.meta_length ▸ htail), ok_bind,
      umul_ok hmul, uadd_ok hbound, pure_eq_ok, uadd_ok hadd, urem_ok h.size_pos, uadd_ok hcount,
      copyFromSlice_ok (Nat.le_add_right _ _) hstore (Nat.add_sub_cancel_left _ _), pushed,
      writeCell]

lemma pushed_inv (h : RingInv rx) (hlen : payload.length ≤ rx.maxPayload)
    (hroom : rx.ringCount < rx.ringSize) : RingInv (pushed rx payload rxMeta) where
  size_pos := h.size_pos
  size_le := h.size_le
  max_eq := h.max_eq
  head_lt := h.head_lt
  count_le := hroom
  tail_eq := by
    simp only [pushed, h.tail_eq, Nat.mod_add_mod, Nat.add_assoc]
  store_length := by
    simp only [pushed]
    rw [length_writeCell h.store_length h.tail_lt hlen, h.store_length]
  len_length := by simp [pushed, h.len_length]
  meta_length := by simp [pushed, h.meta_length]
  len_le := by
    intro n hn
    rcases List.mem_or_eq_of_mem_set hn with hn | rfl
    · exact h.len_le n hn
    · exact hlen

/-- The slot written holds the frame, the others hold what they held. -/
lemma slot_pushed (h : RingInv rx) (hlen : payload.length ≤ rx.maxPayload) {i : ℕ}
    (hi : i < rx.ringSize) :
    (pushed rx payload rxMeta).slot i =
      if i = rx.ringTail then ⟨payload, rxMeta⟩ else rx.slot i := by
  have htail := h.tail_lt
  by_cases hit : i = rx.ringTail
  · subst hit
    have hself := cell_writeCell_self h.store_length htail hlen
    simp only [slot, pushed, if_true]
    rw [List.getD_eq_getElem _ _ (by simpa [h.len_length] using htail),
      List.getD_eq_getElem _ _ (by simpa [h.meta_length] using htail), List.getElem_set_self,
      List.getElem_set_self, hself]
  · have hget : (rx.ringPayloadLen.set rx.ringTail payload.length).getD i 0 =
        rx.ringPayloadLen.getD i 0 := by
      simp [List.getD_eq_getElem?_getD, List.getElem?_set_ne (Ne.symm hit)]
    have hmeta : (rx.ringMeta.set rx.ringTail rxMeta).getD i default =
        rx.ringMeta.getD i default := by
      simp [List.getD_eq_getElem?_getD, List.getElem?_set_ne (Ne.symm hit)]
    have hle : rx.ringPayloadLen.getD i 0 ≤ rx.maxPayload := by
      rw [List.getD_eq_getElem _ _ (by rw [h.len_length]; exact hi)]
      exact h.len_le _ (List.getElem_mem _)
    simp only [slot, pushed, if_neg hit, hget, hmeta,
      cell_writeCell_of_ne h.store_length htail hlen hit hle]

lemma queue_pushed (h : RingInv rx) (hlen : payload.length ≤ rx.maxPayload)
    (hroom : rx.ringCount < rx.ringSize) :
    (pushed rx payload rxMeta).queue = rx.queue ++ [⟨payload, rxMeta⟩] := by
  have hslot : (pushed rx payload rxMeta).slot ((rx.ringHead + rx.ringCount) % rx.ringSize) =
      ⟨payload, rxMeta⟩ := by
    rw [← h.tail_eq, slot_pushed h hlen h.tail_lt, if_pos rfl]
  have hpush : contents rx.ringSize rx.ringHead (rx.ringCount + 1) (pushed rx payload rxMeta).slot =
      rx.queue ++ [(pushed rx payload rxMeta).slot ((rx.ringHead + rx.ringCount) % rx.ringSize)] := by
    refine contents_push hroom fun j hj hne => ?_
    rw [slot_pushed h hlen hj, if_neg (by rw [h.tail_eq]; exact hne)]
  rw [hslot] at hpush
  exact hpush

/-- An enqueue is a bounded append. -/
lemma queue_enqueue (h : RingInv rx) (hlen : payload.length ≤ rx.maxPayload) :
    (if rx.ringCount < rx.ringSize then pushed rx payload rxMeta else rx).queue =
      offer rx.ringSize rx.queue ⟨payload, rxMeta⟩ := by
  rw [offer, length_queue]
  split
  · rename_i hroom
    exact queue_pushed h hlen hroom
  · rfl

lemma popped_inv (h : RingInv rx) (hcount : 0 < rx.ringCount) : RingInv (popped rx) where
  size_pos := h.size_pos
  size_le := h.size_le
  max_eq := h.max_eq
  head_lt := Nat.mod_lt _ h.size_pos
  count_le := by
    have hle := h.count_le
    simp only [popped]
    omega
  tail_eq := by
    simp only [popped, h.tail_eq, Nat.mod_add_mod]
    congr 1
    omega
  store_length := h.store_length
  len_length := h.len_length
  meta_length := h.meta_length
  len_le := h.len_le

/-- A pop removes the front of the queue. -/
lemma queue_popped (h : RingInv rx) (hcount : 0 < rx.ringCount) :
    rx.queue = rx.slot rx.ringHead :: (popped rx).queue := by
  obtain ⟨k, hk⟩ : ∃ k, rx.ringCount = k + 1 := ⟨rx.ringCount - 1, by omega⟩
  simp only [queue, popped, hk, Nat.add_sub_cancel]
  exact contents_pop rx.slot h.head_lt

/-- What the arrays hold at the head is the front frame. -/
lemma slot_head (h : RingInv rx) : ∃ (hlen : rx.ringHead < rx.ringPayloadLen.length)
    (hmeta : rx.ringHead < rx.ringMeta.length),
    (rx.slot rx.ringHead).payload.length = rx.ringPayloadLen[rx.ringHead] ∧
      rx.ringPayloadLen[rx.ringHead] ≤ rx.maxPayload ∧
      (∀ n ≤ rx.ringPayloadLen[rx.ringHead],
        (rx.ringPayloadStore.drop (rx.ringHead * rx.maxPayload)).take n =
          (rx.slot rx.ringHead).payload.take n) ∧
      rx.ringMeta[rx.ringHead] = (rx.slot rx.ringHead).rxMeta := by
  have hlen : rx.ringHead < rx.ringPayloadLen.length := h.len_length ▸ h.head_lt
  have hmeta : rx.ringHead < rx.ringMeta.length := h.meta_length ▸ h.head_lt
  have hle : rx.ringPayloadLen[rx.ringHead] ≤ rx.maxPayload := h.len_le _ (List.getElem_mem _)
  have hstore := (h.offset_lt h.head_lt hle).1
  refine ⟨hlen, hmeta, ?_, hle, ?_, ?_⟩
  · simp only [slot, cell, List.getD_eq_getElem _ _ hlen, List.length_take, List.length_drop]
    omega
  · intro n hn
    simp only [slot, cell, List.getD_eq_getElem _ _ hlen, List.take_take, min_eq_left hn]
  · simp only [slot, List.getD_eq_getElem _ _ hmeta]

/-- `pop_one` on a ring that is not empty does not fault: it removes the front frame and copies
what fits of its payload to the front of the buffer. -/
lemma popOne_eq (h : RingInv rx) (hcount : 0 < rx.ringCount) (buf : List UInt8)
    (outMeta : Option WfbRxMeta) :
    ∃ f, rx.queue = f :: (popped rx).queue ∧ RingInv (popped rx) ∧
      popOne rx buf outMeta = .ok
        ⟨popped rx, f.payload.take buf.length ++ buf.drop f.payload.length,
          outMeta.map fun _ => f.metaFor buf.length, min f.payload.length buf.length⟩ := by
  have hhead := h.head_lt
  have hsize := h.size_le
  obtain ⟨hleni, hmetai, hslotlen, hle, hcell, hmetaeq⟩ := slot_head h
  obtain ⟨hstore, hbound⟩ := h.offset_lt hhead hle
  refine ⟨rx.slot rx.ringHead, queue_popped h hcount, popped_inv h hcount, ?_⟩
  -- every offset that the code computes fits the machine word
  have hmul : rx.ringHead * rx.maxPayload < usizeBound := by omega
  have hcopy : rx.ringHead * rx.maxPayload + min rx.ringPayloadLen[rx.ringHead] buf.length <
      usizeBound := by omega
  have hcopy' : rx.ringHead * rx.maxPayload + min rx.ringPayloadLen[rx.ringHead] buf.length ≤
      rx.ringPayloadStore.length := by omega
  have hadd : rx.ringHead + 1 < usizeBound := lt_usizeBound (by omega)
  have hsrc : ((rx.slot rx.ringHead).payload.take
      (min rx.ringPayloadLen[rx.ringHead] buf.length)).length =
        min rx.ringPayloadLen[rx.ringHead] buf.length := by
    rw [List.length_take, hslotlen]
    omega
  -- the copy is the payload up to the end of the buffer, or all of it
  have hbuf : (rx.slot rx.ringHead).payload.take (min rx.ringPayloadLen[rx.ringHead] buf.length) ++
      buf.drop (min rx.ringPayloadLen[rx.ringHead] buf.length) =
        (rx.slot rx.ringHead).payload.take buf.length ++
          buf.drop (rx.slot rx.ringHead).payload.length := by
    rw [hslotlen]
    rcases Nat.le_total rx.ringPayloadLen[rx.ringHead] buf.length with hfit | hfit
    · rw [min_eq_left hfit, List.take_of_length_le (by omega), List.take_of_length_le (by omega)]
    · rw [min_eq_right hfit, List.drop_eq_nil_of_le le_rfl, List.drop_eq_nil_of_le hfit]
  simp only [popOne, index_ok hleni, ok_bind, umul_ok hmul, uadd_ok hcopy,
    slice_ok (Nat.le_add_right _ _) hcopy', Nat.add_sub_cancel_left,
    hcell _ (Nat.min_le_left _ _), uadd_ok hadd, urem_ok h.size_pos,
    usub_ok (show 1 ≤ rx.ringCount from hcount), pure_eq_ok,
    copyFromSlice_ok (Nat.zero_le _) (Nat.min_le_right _ _)
      (show min rx.ringPayloadLen[rx.ringHead] buf.length - 0 = _ by rw [hsrc, Nat.sub_zero]),
    List.take_zero, List.nil_append, hbuf]
  cases outMeta with
  | none => simp [popped, hslotlen]
  | some m => simp [popped, hslotlen, index_ok hmetai, hmetaeq, Frame.metaFor]

end WfbRx

end WfbRs
