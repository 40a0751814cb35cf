import WfbRs.Rx.Recv
import WfbRs.Tx

/-!
# The C interface (`ffi.rs`)

The result codes and the calls of the C interface.  A null pointer is `none`; a panic is caught
and becomes a code.
-/

namespace WfbRs

open Rust Descriptor

def wfbRsOk : ℤ := 0

def wfbRsErrNullPtr : ℤ := 1

def wfbRsErrInvalidArgument : ℤ := 2

def wfbRsErrIo : ℤ := 3

def wfbRsErrPcap : ℤ := 4

def wfbRsErrTimeout : ℤ := 5

def wfbRsErrInternal : ℤ := 255

def mapErr (err : WfbError) : ℤ :=
  match err with
  | .invalidArgument _ => wfbRsErrInvalidArgument
  | .io _ => wfbRsErrIo
  | .pcap _ => wfbRsErrPcap

/-- `wfb_rx_meta`; `default` is the one of the source. -/
structure CRxMeta where
  seq : UInt32 := 0
  flags : UInt8 := 0
  freq : UInt16 := 0
  mcsIndex : UInt8 := 0
  bandwidth : UInt8 := 0
  antenna : Vector UInt8 4 := Vector.replicate 4 0
  rssi : Vector Int8 4 := Vector.replicate 4 0
  noise : Vector Int8 4 := Vector.replicate 4 0
  antennaCount : UInt8 := 0
  truncated : UInt8 := 0
deriving DecidableEq, Inhabited

def toCMeta (rxMeta : WfbRxMeta) : CRxMeta where
  seq := rxMeta.seq
  flags := rxMeta.flags
  freq := rxMeta.freq
  mcsIndex := rxMeta.mcsIndex
  bandwidth := rxMeta.bandwidth
  antenna := rxMeta.antenna
  rssi := rxMeta.rssi
  noise := rxMeta.noise
  antennaCount := rxMeta.antennaCount
  truncated := if rxMeta.truncated then 1 else 0

/-- What a receive call writes through its pointers.  The code is `none` while the call still
runs. -/
structure CRecvOut where
  code : Option ℤ
  outLen : Option ℕ := none
  outMeta : Option CRxMeta := none

/-- `Duration::from_millis`, in nanoseconds. -/
def fromMillis (ms : ℕ) : ℕ := ms * 1000000

def wfbRxRecv (handle : Option WfbRx) (outBuf : Option (List UInt8)) (timeoutMs : UInt32)
    (outLen : Option ℕ) (outMeta : Option CRxMeta) (world : World) : CRecvOut :=
  match handle, outBuf, outLen with
  | some rx, some buf, some _ =>
      if buf.length = 0 then { code := some wfbRsErrInvalidArgument }
      else
        match WfbRx.recv rx buf (fromMillis timeoutMs.toNat) world with
        | .error _ => { code := some wfbRsErrInternal }
        | .ok out =>
            match out.result with
            | none => { code := none }
            | some (.ok (some (n, rxMeta))) =>
                { code := some wfbRsOk
                  outLen := some n
                  outMeta := outMeta.map fun _ => toCMeta rxMeta }
            | some (.ok none) =>
                { code := some wfbRsErrTimeout
                  outLen := some 0
                  outMeta := outMeta.map fun _ => default }
            | some (.error e) => { code := some (mapErr e) }
  | _, _, _ => { code := some wfbRsErrNullPtr }

/-! ### Opening and sending -/

/-- `wfb_tx_config`; `iface` points to bytes that a NUL ends. -/
structure CTxConfig where
  iface : Option (List UInt8)
  streamId : UInt32
  frameType : UInt8
  mcsIndex : UInt8
  bandwidth : UInt8

/-- `wfb_rx_config`. -/
structure CRxConfig where
  iface : Option (List UInt8)
  streamId : UInt32
  ignoreSelfInjected : UInt8
  ringSize : UInt32

/-- `c_iface`: the bytes in front of the first NUL. -/
def cIface (ptr : Option (List UInt8)) : Except ℤ String :=
  match ptr with
  | none => .error wfbRsErrNullPtr
  | some bytes =>
      match String.fromUTF8? ⟨(bytes.takeWhile (· ≠ 0)).toArray⟩ with
      | none => .error wfbRsErrInvalidArgument
      | some iface => if iface = "" then .error wfbRsErrInvalidArgument else .ok iface

/-- What an open call leaves: its code, and what `out_handle` points to. -/
structure COpened (α : Type) where
  code : ℤ
  handle : Option α

/-- The part of an open call behind its null checks. -/
def ffiOpen {α : Type} (iface : Option (List UInt8))
    (openRust : String → SysProg (Except WfbError α)) (handle : Option α) :
    SysProg (COpened α) := do
  match cIface iface with
  | .error code => return ⟨code, handle⟩
  | .ok iface =>
      match ← openRust iface with
      | .ok opened => return ⟨wfbRsOk, some opened⟩
      | .error e => return ⟨mapErr e, handle⟩

/-- `wfb_tx_open`; `outHandle` is the pointer and what it points to. -/
def wfbTxOpen (cfg : Option CTxConfig) (outHandle : Option (Option WfbTx)) :
    SysProg (COpened WfbTx) :=
  match cfg, outHandle with
  | some cfg, some handle =>
      ffiOpen cfg.iface (fun iface => WfbTx.open ⟨iface, cfg.streamId, cfg.frameType, cfg.mcsIndex,
        cfg.bandwidth⟩) handle
  | _, _ => return ⟨wfbRsErrNullPtr, outHandle.join⟩

def wfbRxOpen (cfg : Option CRxConfig) (outHandle : Option (Option WfbRx)) :
    SysProg (COpened WfbRx) :=
  match cfg, outHandle with
  | some cfg, some handle =>
      ffiOpen cfg.iface (fun iface => WfbRx.open ⟨iface, cfg.streamId,
        decide (cfg.ignoreSelfInjected ≠ 0), cfg.ringSize.toNat⟩) handle
  | _, _ => return ⟨wfbRsErrNullPtr, outHandle.join⟩

def wfbRsMaxPayload : ℕ := computeMaxPayload

/-- What a send call leaves: its code, the transmitter behind the handle, and the buffers handed
to `sendmsg` if it got there. -/
structure CSendOut where
  code : ℤ
  handle : Option WfbTx
  iovecs : Option (List (List UInt8)) := none

/-- `wfb_tx_send`, given the answer of `sendmsg`. -/
def wfbTxSend (handle : Option WfbTx) (payload : Option (List UInt8)) (payloadLen : ℕ)
    (seq : UInt32) (rc : Except SysError ℤ) : CSendOut :=
  match handle with
  | none => { code := wfbRsErrNullPtr, handle := none }
  | some tx =>
      if payloadLen > 0 ∧ payload = none then { code := wfbRsErrNullPtr, handle := some tx }
      else
        match tx.send ((payload.getD []).take payloadLen) seq rc with
        | .error _ => { code := wfbRsErrInternal, handle := some tx }
        | .ok out =>
            { code := match out.result with
                | .ok _ => wfbRsOk
                | .error e => mapErr e
              handle := some out.tx
              iovecs := out.iovecs }

lemma mapErr_ne_ok (e : WfbError) : mapErr e ≠ wfbRsOk := by
  cases e <;> simp only [mapErr] <;> decide

lemma cIface_ne_ok {ptr : Option (List UInt8)} {code : ℤ} (h : cIface ptr = .error code) :
    code ≠ wfbRsOk := by
  unfold cIface at h
  split at h
  · obtain rfl := Except.error.inj h
    decide
  · split at h
    · obtain rfl := Except.error.inj h
      decide
    · split at h
      · obtain rfl := Except.error.inj h
        decide
      · cases h

/-- What a successful open call returns. -/
lemma returns_ffiOpen {α : Type} {iface : Option (List UInt8)}
    {openRust : String → SysProg (Except WfbError α)} {handle : Option α} {out : COpened α} :
    (ffiOpen iface openRust handle).Returns out ∧ out.code = wfbRsOk ↔
      ∃ name opened, cIface iface = .ok name ∧ (openRust name).Returns (.ok opened) ∧
        out = ⟨wfbRsOk, some opened⟩ := by
  unfold ffiOpen
  cases hiface : cIface iface with
  | error code =>
      refine iff_of_false ?_ (by simp)
      rintro ⟨hout, hcode⟩
      obtain rfl := Prog.returns_done.mp hout
      exact cIface_ne_ok hiface hcode
  | ok name =>
      simp only [Prog.returns_bind, Except.ok.injEq]
      constructor
      · rintro ⟨⟨r, hr, hout⟩, hcode⟩
        cases r with
        | error e =>
            obtain rfl := Prog.returns_done.mp hout
            exact absurd hcode (mapErr_ne_ok e)
        | ok opened => exact ⟨name, opened, rfl, hr, Prog.returns_done.mp hout⟩
      · rintro ⟨_, opened, rfl, hr, rfl⟩
        exact ⟨⟨.ok opened, hr, .done _⟩, rfl⟩

/-! ### Closing -/

/-- `wfb_rx_close`: the receiver behind the handle is dropped. -/
def wfbRxClose (handle : Option WfbRx) : SysProg ℤ := do
  match handle with
  | none => return wfbRsErrNullPtr
  | some rx =>
      rx.drop
      return wfbRsOk

/-- `wfb_tx_close`: the transmitter behind the handle is dropped. -/
def wfbTxClose (handle : Option WfbTx) : SysProg ℤ := do
  match handle with
  | none => return wfbRsErrNullPtr
  | some tx =>
      tx.drop
      return wfbRsOk

end WfbRs
