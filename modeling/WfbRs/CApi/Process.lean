import WfbRs.Ffi
import WfbRs.Rx.Runs
import WfbRs.TxRuns

/-!
# A process that uses the C interface

The transmitters and receivers that a process has opened are boxes on its heap, and a handle is
the address of one.  A step is one call, on a handle that is null or that an open call has
returned and no close call was given; any other handle is undefined behaviour and has no step.
-/

namespace WfbRs

open Rust Descriptor

namespace CApi

/-! ### The heap -/

/-- What a handle points to. -/
inductive Boxed
  | tx (sender : WfbTx)
  | rx (receiver : WfbRx)

/-- The boxes by address. -/
abbrev Heap : Type := ℕ → Option Boxed

def Boxed.tx? : Boxed → Option WfbTx
  | .tx sender => some sender
  | .rx _ => none

def Boxed.rx? : Boxed → Option WfbRx
  | .tx _ => none
  | .rx receiver => some receiver

/-- What the library finds behind a handle that it takes for a transmitter. -/
def Heap.tx (heap : Heap) (handle : Option ℕ) : Option WfbTx :=
  handle.bind fun p => (heap p).bind Boxed.tx?

def Heap.rx (heap : Heap) (handle : Option ℕ) : Option WfbRx :=
  handle.bind fun p => (heap p).bind Boxed.rx?

/-- Write behind a handle, if it is not null. -/
def Heap.write (heap : Heap) (handle : Option ℕ) (boxed : Option Boxed) : Heap :=
  match handle with
  | none => heap
  | some p => Function.update heap p boxed

/-! ### Calls -/

/-- A call with its arguments.  Of `out_handle`, `out_len` and `out_meta` only matters whether
they are null. -/
inductive Call
  | txOpen (cfg : Option CTxConfig) (outHandle : Bool)
  | txClose (handle : Option ℕ)
  | txSend (handle : Option ℕ) (payload : Option (List UInt8)) (payloadLen : ℕ) (seq : UInt32)
  | rxOpen (cfg : Option CRxConfig) (outHandle : Bool)
  | rxClose (handle : Option ℕ)
  | rxRecv (handle : Option ℕ) (outBuf : Option (List UInt8)) (timeoutMs : UInt32) (outLen : Bool)
      (outMeta : Bool)

/-- What a call returns and what it writes through its pointers.  `sent` is what `sendmsg` was
given, with what it answered, and `drained` what the call has taken from the capture. -/
structure Answer where
  code : ℤ
  opened : Option ℕ := none
  sent : Option (List (List UInt8) × Except SysError ℤ) := none
  outBuf : Option (List UInt8) := none
  outLen : Option ℕ := none
  outMeta : Option CRxMeta := none
  drained : List (List CapturedPacket) := []

/-- A pointer to a fresh value. -/
def pointer {α : Type} (isSet : Bool) (a : α) : Option α := if isSet then some a else none

/-- What a receive call leaves behind the handle and in the buffer, if it gets that far. -/
def recvLeft (handle : Option WfbRx) (outBuf : Option (List UInt8)) (timeoutMs : UInt32)
    (outLen : Bool) (world : World) : Option RecvOut :=
  handle.bind fun rx => outBuf.bind fun buf =>
    if outLen then (WfbRx.recv rx buf (fromMillis timeoutMs.toNat) world).toOption else none

/-- One call.  An open call puts what it opens into a new box. -/
inductive Step (heap : Heap) : Call → Answer → Heap → Prop
  | txOpen {cfg : Option CTxConfig} {outHandle : Bool} {out : COpened WfbTx} {box : ℕ}
      (returns : (wfbTxOpen cfg (pointer outHandle none)).Returns out) (free : heap box = none) :
      Step heap (.txOpen cfg outHandle) { code := out.code, opened := out.handle.map fun _ => box }
        (heap.write (out.handle.map fun _ => box) (out.handle.map .tx))
  | txClose {handle : Option ℕ} {code : ℤ} (valid : handle ≠ none → heap.tx handle ≠ none)
      (returns : (wfbTxClose (heap.tx handle)).Returns code) :
      Step heap (.txClose handle) { code := code } (heap.write handle none)
  | txSend {handle : Option ℕ} {payload : Option (List UInt8)} {payloadLen : ℕ} {seq : UInt32}
      {rc : Except SysError ℤ} {out : CSendOut} (valid : handle ≠ none → heap.tx handle ≠ none)
      (readable : ∀ bytes ∈ payload, payloadLen ≤ bytes.length)
      (returns : out = wfbTxSend (heap.tx handle) payload payloadLen seq rc) :
      Step heap (.txSend handle payload payloadLen seq)
        { code := out.code, sent := out.iovecs.map fun iovecs => (iovecs, rc) }
        (heap.write handle (out.handle.map .tx))
  | rxOpen {cfg : Option CRxConfig} {outHandle : Bool} {out : COpened WfbRx} {box : ℕ}
      (returns : (wfbRxOpen cfg (pointer outHandle none)).Returns out) (free : heap box = none) :
      Step heap (.rxOpen cfg outHandle) { code := out.code, opened := out.handle.map fun _ => box }
        (heap.write (out.handle.map fun _ => box) (out.handle.map .rx))
  | rxClose {handle : Option ℕ} {code : ℤ} (valid : handle ≠ none → heap.rx handle ≠ none)
      (returns : (wfbRxClose (heap.rx handle)).Returns code) :
      Step heap (.rxClose handle) { code := code } (heap.write handle none)
  | rxRecv {handle : Option ℕ} {outBuf : Option (List UInt8)} {timeoutMs : UInt32}
      {outLen outMeta : Bool} {world : World} {out : CRecvOut} {code : ℤ} {left : Option RecvOut}
      (valid : handle ≠ none → heap.rx handle ≠ none)
      (returns : out = wfbRxRecv (heap.rx handle) outBuf timeoutMs (pointer outLen 0)
        (pointer outMeta default) world)
      (ended : out.code = some code)
      (left_eq : left = recvLeft (heap.rx handle) outBuf timeoutMs outLen world) :
      Step heap (.rxRecv handle outBuf timeoutMs outLen outMeta)
        { code := code, outBuf := left.map RecvOut.buf, outLen := out.outLen, outMeta := out.outMeta
          drained := (left.map fun l => l.drained.map Drain.batch).getD [] }
        (heap.write handle (((left.map RecvOut.rx).or (heap.rx handle)).map .rx))

/-- A call, and what it gave. -/
structure Event where
  call : Call
  answer : Answer

/-- Calls one after the other. -/
inductive Run : Heap → List Event → Heap → Prop
  | nil (heap : Heap) : Run heap [] heap
  | cons {heap heap' heap'' : Heap} {call : Call} {answer : Answer} {events : List Event}
      (step : Step heap call answer heap') (rest : Run heap' events heap'') :
      Run heap (⟨call, answer⟩ :: events) heap''

end CApi

/-! ### Refused configurations -/

/-- What `open_pfpacket_tx_socket` fails with. -/
lemma WfbTx.returns_socket_error {iface : String} {e : WfbError}
    (h : (openPfpacketTxSocket iface).Returns (.error e)) : (∃ errno, e = .io errno) ∨
      (∃ msg, e = .invalidArgument msg) ∧
        ¬ (iface.utf8ByteSize ≠ 0 ∧ iface.utf8ByteSize < ifnamsiz) := by
  simp only [openPfpacketTxSocket, Prog.acquire_bind, Prog.done_bind, Prog.returns_acquire] at h
  obtain ⟨r₁, h⟩ := h
  rcases r₁ with e₁ | fd
  · exact .inl ⟨_, by simpa [Prog.returns_done] using h⟩
  simp only [Prog.call_bind, Prog.done_bind, Prog.returns_call] at h
  obtain ⟨-, h⟩ := h
  by_cases hlen : iface.utf8ByteSize = 0 ∨ iface.utf8ByteSize ≥ ifnamsiz
  · simp only [if_pos hlen, Prog.release_bind, Prog.done_bind, Prog.returns_release] at h
    exact .inr ⟨⟨_, by simpa [Prog.returns_done] using h⟩, by omega⟩
  simp only [if_neg hlen, Prog.returns_call] at h
  obtain ⟨r₂, h⟩ := h
  rcases r₂ with e₂ | _
  · exact .inl ⟨_, by simpa [Prog.returns_release, Prog.returns_done] using h⟩
  obtain ⟨r₃, h⟩ := Prog.returns_call.mp h
  rcases r₃ with e₃ | _
  · exact .inl ⟨_, by simpa [Prog.returns_release, Prog.returns_done] using h⟩
  · simp [Prog.returns_done] at h

lemma WfbTx.buildRadiotapHt_error {tx : WfbTx} {mcsIndex bandwidth : UInt8} {e : WfbError}
    (h : buildRadiotapHt tx mcsIndex bandwidth = .error e) : ∃ msg, e = .invalidArgument msg := by
  unfold buildRadiotapHt at h
  by_cases hmcs : mcsIndex > 0x0f
  · rw [if_pos hmcs] at h
    exact ⟨_, (Except.error.inj h).symm⟩
  rw [if_neg hmcs] at h
  split at h
  · cases h
  · cases h
  · exact ⟨_, (Except.error.inj h).symm⟩

/-- What `WfbTx::open` fails with: an acceptable configuration only for the system's sake. -/
lemma WfbTx.returns_open_error {cfg : WfbTxConfig} {e : WfbError}
    (h : (WfbTx.open cfg).Returns (.error e)) :
    (∃ errno, e = .io errno) ∨ (∃ msg, e = .invalidArgument msg) ∧ ¬ Accepts cfg := by
  unfold WfbTx.open at h
  by_cases hiface : cfg.iface = ""
  · rw [if_pos hiface] at h
    exact .inr ⟨⟨_, Except.error.inj (Prog.returns_done.mp h)⟩, fun hacc => hacc.iface hiface⟩
  by_cases hstream : cfg.streamId = 0
  · rw [if_neg hiface, if_pos hstream] at h
    exact .inr ⟨⟨_, Except.error.inj (Prog.returns_done.mp h)⟩, fun hacc => hacc.stream hstream⟩
  by_cases htype : cfg.frameType ≠ wfbFrameTypeData ∧ cfg.frameType ≠ wfbFrameTypeRts
  · rw [if_neg hiface, if_neg hstream, if_pos htype] at h
    exact .inr ⟨⟨_, Except.error.inj (Prog.returns_done.mp h)⟩,
      fun hacc => hacc.frameType.elim htype.1 htype.2⟩
  simp only [if_neg hiface, if_neg hstream, if_neg htype, Prog.returns_bind] at h
  obtain ⟨r, hsocket, h⟩ := h
  rcases r with e' | fd
  · obtain rfl := Except.error.inj (Prog.returns_done.mp h)
    refine (returns_socket_error hsocket).imp id fun ⟨hmsg, hname⟩ => ⟨hmsg, fun hacc => ?_⟩
    exact hname ⟨by simpa using hiface, hacc.name⟩
  · cases hbuild : buildRadiotapHt (around cfg fd) (if cfg.mcsIndex = 0 then 1 else cfg.mcsIndex)
        (if cfg.bandwidth = 0 then 20 else cfg.bandwidth) with
    | ok tx => simp [hbuild, Prog.returns_done] at h
    | error e' =>
        simp only [hbuild, Prog.returns_bind, Prog.pure_eq_done, Prog.returns_done,
          Except.error.injEq] at h
        obtain ⟨-, -, rfl⟩ := h
        refine .inr ⟨?_, fun hacc => ?_⟩
        · exact buildRadiotapHt_error hbuild
        · rw [(buildRadiotapHt_around fd).mpr ⟨hacc.mcsIndex, hacc.bandwidth, rfl⟩] at hbuild
          cases hbuild

/-- What `WfbRx::open` fails with. -/
lemma WfbRx.returns_open_error {cfg : WfbRxConfig} {e : WfbError}
    (h : (WfbRx.open cfg).Returns (.error e)) : (∃ text, e = .pcap text) ∧ cfg.streamId ≠ 0 ∨
      (∃ msg, e = .invalidArgument msg) ∧ ¬ (cfg.iface ≠ "" ∧ cfg.streamId ≠ 0) := by
  unfold WfbRx.open at h
  by_cases hiface : cfg.iface = ""
  · rw [if_pos hiface] at h
    exact .inr ⟨⟨_, Except.error.inj (Prog.returns_done.mp h)⟩, fun hacc => hacc.1 hiface⟩
  by_cases hstream : cfg.streamId = 0
  · rw [if_neg hiface, if_pos hstream] at h
    exact .inr ⟨⟨_, Except.error.inj (Prog.returns_done.mp h)⟩, fun hacc => hacc.2 hstream⟩
  simp only [hiface, hstream, computeMaxPayload_eq, Nat.not_lt_of_le (show 1 ≤ 4013 by omega),
    if_false, Prog.call_bind, Prog.acquire_bind, Prog.done_bind, Prog.returns_call] at h
  refine .inl ⟨?_, hstream⟩
  obtain ⟨r₁, h⟩ := h
  rcases r₁ with e₁ | _
  · exact ⟨_, by simpa [Prog.returns_done] using h⟩
  obtain ⟨r₂, h⟩ := Prog.returns_acquire.mp h
  rcases r₂ with e₂ | fd
  · exact ⟨_, by simpa [Prog.returns_done] using h⟩
  obtain ⟨r₃, h⟩ := Prog.returns_call.mp h
  rcases r₃ with e₃ | _
  · exact ⟨_, by simpa [dropCapture, Prog.returns_release, Prog.returns_done] using h⟩
  obtain ⟨r₄, h⟩ := Prog.returns_call.mp h
  rcases r₄ with e₄ | _
  · exact ⟨_, by simpa [dropCapture, Prog.returns_release, Prog.returns_done] using h⟩
  · simp [Prog.returns_done] at h

/-! ### What a send answers -/

lemma WfbTx.send_refused (tx : WfbTx) {payload : List UInt8} (seq : UInt32)
    (rc : Except SysError ℤ) (h : ¬ payload.length ≤ computeMaxPayload) :
    ∃ msg, tx.send payload seq rc = .ok ⟨tx, none, .error (.invalidArgument msg)⟩ :=
  ⟨_, by rw [send, if_pos (Nat.lt_of_not_le h)]; rfl⟩

/-- A payload that fits is answered as `sendmsg` is. -/
lemma WfbTx.send_code {tx : WfbTx} {payload : List UInt8} {seq : UInt32} {rc : Except SysError ℤ}
    {out : Sent} (hlen : payload.length ≤ computeMaxPayload)
    (h : tx.send payload seq rc = .ok out) :
    (match out.result with
      | .ok _ => wfbRsOk
      | .error e => mapErr e) = if rc.isOk then wfbRsOk else wfbRsErrIo := by
  have hfits : ¬ payload.length > computeMaxPayload := Nat.not_lt_of_le hlen
  cases rc with
  | error e =>
      simp only [send, if_neg hfits, WfbFrameHeader.encode_eq, ok_bind, pure_eq_ok] at h
      obtain rfl := Except.ok.inj h
      rfl
  | ok n =>
      simp only [send, if_neg hfits, WfbFrameHeader.encode_eq, ok_bind, pure_eq_ok] at h
      obtain rfl := Except.ok.inj h
      rfl

end WfbRs
