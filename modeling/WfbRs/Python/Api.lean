import WfbRs.Ffi

/-!
# The Python package (`_ffi.py` and `api.py`)

The constructors of `Tx` and `Rx`, `send` and `recv`, over the C interface.  Python integers are
integers of any size; `ctypes` keeps them modulo the range of their C type.
-/

namespace WfbRs

open Rust Descriptor

namespace Python

/-! ### Errors -/

/-- The classes of `WfbRsError`. -/
inductive ErrorClass
  | nullPointer
  | invalidArgument
  | io
  | pcap
  | timeout
  | internal
  /-- `WfbRsError` itself. -/
  | other
deriving DecidableEq, Repr

/-- What the package raises. -/
inductive PyError
  | valueError (message : String)
  | runtimeError (message : String)
  | wfbRsError (type : ErrorClass) (message : String) (code : ℤ)
deriving DecidableEq

def excFromCode (code : ℤ) : ErrorClass :=
  if code = wfbRsErrNullPtr then .nullPointer
  else if code = wfbRsErrInvalidArgument then .invalidArgument
  else if code = wfbRsErrIo then .io
  else if code = wfbRsErrPcap then .pcap
  else if code = wfbRsErrTimeout then .timeout
  else if code = wfbRsErrInternal then .internal
  else .other

def raiseForCode (code : ℤ) (fnName : String) : Except PyError Unit :=
  if code = wfbRsOk then return ()
  else throw (.wfbRsError (excFromCode code) s!"{fnName} failed with error code {code}" code)

/-! ### Integers -/

/-- An integer kept as a `c_uint32`. -/
def cUint32 (n : ℤ) : UInt32 := UInt32.ofNat (n % 2 ^ 32).toNat

/-- An integer kept as a `c_uint8`. -/
def cUint8 (n : ℤ) : UInt8 := UInt8.ofNat (n % 2 ^ 8).toNat

lemma toNat_cUint32 (n : ℤ) : ((cUint32 n).toNat : ℤ) = n % 2 ^ 32 := by
  rw [cUint32, UInt32.toNat_ofNat']
  omega

lemma toNat_cUint8 (n : ℤ) : ((cUint8 n).toNat : ℤ) = n % 2 ^ 8 := by
  rw [cUint8, UInt8.toNat_ofNat']
  omega

/-- `str.encode`. -/
def encode (s : String) : List UInt8 := s.toUTF8.data.toList

/-! ### The constructors -/

/-- The two attributes of a `Tx` or an `Rx`. -/
structure Wrapper (α : Type) where
  handle : Option α
  closed : Bool

/-- A constructor: `capi` is what `get_capi` does, `openNative` the open call on a null handle. -/
def construct {α : Type} (capi : Except PyError Unit) (iface : String)
    (openNative : Option α → SysProg (COpened α)) (fnName : String) :
    SysProg (Except PyError (Wrapper α)) := do
  if iface = "" then return .error (.valueError "iface must not be empty")
  match capi with
  | .error e => return .error e
  | .ok _ =>
      let out ← openNative none
      match raiseForCode out.code fnName with
      | .error e => return .error e
      | .ok _ => return .ok ⟨out.handle, false⟩

abbrev Tx : Type := Wrapper WfbTx

abbrev Rx : Type := Wrapper WfbRx

/-- `Tx.__init__`. -/
def Tx.init (capi : Except PyError Unit) (iface : String) (streamId : ℤ) (frameType : ℤ := 0x08)
    (mcsIndex : ℤ := 1) (bandwidth : ℤ := 20) : SysProg (Except PyError Tx) :=
  let cfg : CTxConfig := ⟨some (encode iface), cUint32 streamId, cUint8 frameType,
    cUint8 mcsIndex, cUint8 bandwidth⟩
  construct capi iface (fun handle => wfbTxOpen (some cfg) (some handle)) "wfb_tx_open"

/-- `Rx.__init__`. -/
def Rx.init (capi : Except PyError Unit) (iface : String) (streamId : ℤ)
    (ignoreSelfInjected : Bool := true) (ringSize : ℤ := 16) : SysProg (Except PyError Rx) :=
  let cfg : CRxConfig := ⟨some (encode iface), cUint32 streamId,
    if ignoreSelfInjected then 1 else 0, cUint32 ringSize⟩
  construct capi iface (fun handle => wfbRxOpen (some cfg) (some handle)) "wfb_rx_open"

/-! ### Sending and receiving -/

/-- What a `send` leaves. -/
structure TxSent where
  tx : Tx
  iovecs : Option (List (List UInt8))
  result : Except PyError Unit

/-- `Tx.send`, given the answer of `sendmsg`. -/
def Tx.send (tx : Tx) (payload : List UInt8) (seq : ℤ) (rc : Except SysError ℤ) : TxSent :=
  if tx.closed then ⟨tx, none, .error (.runtimeError "Tx handle is closed")⟩
  else if payload.length > wfbRsMaxPayload then
    ⟨tx, none, .error (.valueError
      s!"payload too large: {payload.length} > {wfbRsMaxPayload}")⟩
  else
    let payloadPtr := if payload = [] then none else some payload
    let out := wfbTxSend tx.handle payloadPtr payload.length (cUint32 seq) rc
    ⟨{ tx with handle := out.handle }, out.iovecs, raiseForCode out.code "wfb_tx_send"⟩

/-- The metadata in Python integers. -/
structure RxMeta where
  seq : ℤ
  flags : ℤ
  freq : ℤ
  mcsIndex : ℤ
  bandwidth : ℤ
  antenna : Vector ℤ 4
  rssi : Vector ℤ 4
  noise : Vector ℤ 4
  antennaCount : ℤ
  truncated : Bool
deriving DecidableEq

def RxMeta.fromCtype (m : CRxMeta) : RxMeta where
  seq := m.seq.toNat
  flags := m.flags.toNat
  freq := m.freq.toNat
  mcsIndex := m.mcsIndex.toNat
  bandwidth := m.bandwidth.toNat
  antenna := m.antenna.map fun x => (x.toNat : ℤ)
  rssi := m.rssi.map Int8.toInt
  noise := m.noise.map Int8.toInt
  antennaCount := m.antennaCount.toNat
  truncated := m.truncated ≠ 0

/-- What the native call of a `recv` leaves behind the handle, and in the buffer. -/
def nativeRecv (handle : Option WfbRx) (buf : List UInt8) (timeoutMs : UInt32) (world : World) :
    Option RecvOut :=
  handle.bind fun rx => (WfbRx.recv rx buf (fromMillis timeoutMs.toNat) world).toOption

/-- What a `recv` leaves.  The result is `none` while the call still runs. -/
structure RxReceived where
  rx : Rx
  world : World
  result : Option (Except PyError (List UInt8 × RxMeta))

/-- `Rx.recv`. -/
def Rx.recv (rx : Rx) (timeoutMs : ℤ) (world : World) (bufSize : Option ℤ := none) : RxReceived :=
  let bufSize := bufSize.getD wfbRsMaxPayload
  if rx.closed then ⟨rx, world, some (.error (.runtimeError "Rx handle is closed"))⟩
  else if timeoutMs < 0 then ⟨rx, world, some (.error (.valueError "timeout_ms must be >= 0"))⟩
  else if bufSize ≤ 0 then ⟨rx, world, some (.error (.valueError "buf_size must be > 0"))⟩
  else
    let outBuf := List.replicate bufSize.toNat 0
    let out := wfbRxRecv rx.handle (some outBuf) (cUint32 timeoutMs) (some 0) (some default) world
    let left := nativeRecv rx.handle outBuf (cUint32 timeoutMs) world
    { rx := { rx with handle := (left.map RecvOut.rx).or rx.handle }
      world := (left.map RecvOut.world).getD world
      result := out.code.map fun code =>
        if code = wfbRsErrTimeout then
          .error (.wfbRsError .timeout "wfb_rx_recv timed out" code)
        else do
          raiseForCode code "wfb_rx_recv"
          let outBuf := (left.map RecvOut.buf).getD outBuf
          return (outBuf.take (out.outLen.getD 0), .fromCtype (out.outMeta.getD default)) }

/-! ### What the calls answer -/

lemma raiseForCode_eq_ok {code : ℤ} {fnName : String} {u : Unit} :
    raiseForCode code fnName = .ok u ↔ code = wfbRsOk := by
  unfold raiseForCode
  split
  · exact iff_of_true rfl ‹_›
  · exact iff_of_false (by rintro ⟨⟩) ‹_›

/-- What a successful constructor returns, over an open call of the C interface. -/
lemma returns_construct {α : Type} {capi : Except PyError Unit} {iface fnName : String}
    {openRust : String → SysProg (Except WfbError α)} {w : Wrapper α} :
    (construct capi iface (ffiOpen (some (encode iface)) openRust) fnName).Returns (.ok w) ↔
      iface ≠ "" ∧ capi = .ok () ∧ ∃ name opened, cIface (some (encode iface)) = .ok name ∧
        (openRust name).Returns (.ok opened) ∧ w = ⟨some opened, false⟩ := by
  unfold construct
  by_cases hiface : iface = ""
  · simp [hiface, Prog.returns_done]
  cases capi with
  | error e => simp [hiface, Prog.returns_done]
  | ok u =>
      rw [if_neg hiface, and_iff_right hiface, and_iff_right rfl]
      simp only [Prog.returns_bind]
      constructor
      · rintro ⟨out, hout, hret⟩
        cases hcode : raiseForCode out.code fnName with
        | error e => simp [hcode, Prog.returns_done] at hret
        | ok u =>
            obtain ⟨name, opened, hname, hopened, rfl⟩ :=
              returns_ffiOpen.mp ⟨hout, raiseForCode_eq_ok.mp hcode⟩
            simp only [hcode, Prog.pure_eq_done, Prog.returns_done, Except.ok.injEq] at hret
            exact ⟨name, opened, hname, hopened, hret⟩
      · rintro ⟨name, opened, hname, hopened, rfl⟩
        obtain ⟨hout, hcode⟩ := returns_ffiOpen.mpr ⟨name, opened, hname, hopened, rfl⟩
        refine ⟨_, hout, ?_⟩
        rw [(raiseForCode_eq_ok (u := u)).mpr hcode]
        exact .done _

/-- A payload that does not fit is refused. -/
lemma Tx.send_too_large (h : WfbTx) {payload : List UInt8} (seq : ℤ) (rc : Except SysError ℤ)
    (hlen : ¬ payload.length ≤ computeMaxPayload) :
    ∃ e, Tx.send ⟨some h, false⟩ payload seq rc = ⟨⟨some h, false⟩, none, .error e⟩ := by
  have hlarge : payload.length > wfbRsMaxPayload := Nat.lt_of_not_le hlen
  exact ⟨_, by rw [Tx.send, if_neg (by simp), if_pos hlarge]⟩

/-- A payload that fits is handed over with what `ctypes` keeps of the sequence number. -/
lemma Tx.send_fits {cfg : WfbTxConfig} {h : WfbTx} (hinv : WfbTx.HeaderInv cfg h)
    {payload : List UInt8} (hlen : payload.length ≤ computeMaxPayload) (seq : ℤ)
    (rc : Except SysError ℤ) :
    ∃ h' result, WfbTx.HeaderInv cfg h' ∧ Tx.send ⟨some h, false⟩ payload seq rc =
        ⟨⟨some h', false⟩, some (WfbTx.iovecsOf cfg h' payload (cUint32 seq)), result⟩ ∧
      (result = .ok () ↔ ∃ n, rc = .ok n) := by
  obtain ⟨out, hsend, hinv', -, hiovecs, hresult⟩ := WfbTx.send_spec hinv hlen (cUint32 seq) rc
  have hptr : ((if payload = [] then none else some payload).getD []).take payload.length =
      payload := by
    split
    · simp [*]
    · simp
  have hnull : ¬ (payload.length > 0 ∧ (if payload = [] then none else some payload) = none) := by
    split
    · simp [*]
    · simp
  have hsmall : ¬ payload.length > wfbRsMaxPayload := Nat.not_lt_of_le hlen
  refine ⟨out.tx, (Tx.send ⟨some h, false⟩ payload seq rc).result, hinv', ?_, ?_⟩
  · simp only [Tx.send, Bool.false_eq_true, if_false, if_neg hsmall, wfbTxSend, if_neg hnull, hptr,
      hsend, hiovecs]
  · simp only [Tx.send, Bool.false_eq_true, if_false, if_neg hsmall, wfbTxSend, if_neg hnull, hptr,
      hsend, raiseForCode_eq_ok, ← hresult]
    cases out.result with
    | ok u => simp
    | error e => simp [mapErr_ne_ok]

/-- What `recv` makes of a native call. -/
def answer (out : RecvOut) : Option (Except PyError (List UInt8 × RxMeta)) :=
  out.result.map fun result =>
    match result with
    | .ok (some (n, rxMeta)) => .ok (out.buf.take n, .fromCtype (toCMeta rxMeta))
    | .ok none => .error (.wfbRsError .timeout "wfb_rx_recv timed out" wfbRsErrTimeout)
    | .error e => .error (.wfbRsError (excFromCode (mapErr e))
        s!"wfb_rx_recv failed with error code {mapErr e}" (mapErr e))

/-- `recv` answers what the native call with the narrowed timeout does. -/
lemma Rx.recv_eq {h : WfbRx} {timeoutMs bufSize : ℤ} {world : World} {out : RecvOut}
    (htimeout : 0 ≤ timeoutMs) (hsize : 0 < bufSize)
    (hout : WfbRx.recv h (List.replicate bufSize.toNat 0) (fromMillis (cUint32 timeoutMs).toNat)
      world = .ok out) :
    (Rx.recv ⟨some h, false⟩ timeoutMs world (some bufSize)).result = answer out := by
  have hlen : (List.replicate bufSize.toNat (0 : UInt8)).length ≠ 0 := by
    rw [List.length_replicate]
    omega
  simp only [Rx.recv, Bool.false_eq_true, if_false, Option.getD_some, if_neg (not_lt.mpr htimeout),
    if_neg (not_le.mpr hsize), wfbRxRecv, if_neg hlen, hout, nativeRecv, Option.bind_some,
    Except.toOption, Option.map_some, answer]
  rcases out.result with _ | (e | (_ | ⟨n, rxMeta⟩))
  · rfl
  · cases e <;> rfl
  · rfl
  · rfl

end Python

end WfbRs
