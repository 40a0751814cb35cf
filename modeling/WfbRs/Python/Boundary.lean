import WfbRs.EndToEnd
import WfbRs.Python.Api
import WfbRs.Radiotap.RoundTrip
import WfbRs.Rx.Waiting

/-!
# The boundary between Python and C

Which integers survive the way from a Python call to the native handle.  `ctypes` keeps an
integer modulo the range of its C type and the native code sees only what is left, so a call
does what its integers say exactly when they fit their types, or when what is left is refused.
-/

namespace WfbRs

open Rust Descriptor PcapFilter

namespace Python

/-! ### What the calls promise -/

/-- The integers of an unsigned C type. -/
def Fits (bits : ℕ) (n : ℤ) : Prop := 0 ≤ n ∧ n < 2 ^ bits

instance (bits : ℕ) (n : ℤ) : Decidable (Fits bits n) := inferInstanceAs (Decidable (_ ∧ _))

/-- The arguments of `Tx`, with what `get_capi` does. -/
structure TxArgs where
  capi : Except PyError Unit
  iface : String
  streamId : ℤ
  frameType : ℤ
  mcsIndex : ℤ
  bandwidth : ℤ

/-- The arguments of `Rx`. -/
structure RxArgs where
  capi : Except PyError Unit
  iface : String
  streamId : ℤ
  ignoreSelfInjected : Bool
  ringSize : ℤ

/-- The constructor returns this object. -/
def TxArgs.Constructs (a : TxArgs) (tx : Tx) : Prop :=
  (Tx.init a.capi a.iface a.streamId a.frameType a.mcsIndex a.bandwidth).Returns (.ok tx)

def RxArgs.Constructs (a : RxArgs) (rx : Rx) : Prop :=
  (Rx.init a.capi a.iface a.streamId a.ignoreSelfInjected a.ringSize).Returns (.ok rx)

/-- A transmitter whose headers carry these integers, up to the two defaults. -/
structure TxExact (a : TxArgs) (tx : WfbTx) : Prop where
  source : (Words.ofBE ((tx.ieeeHdr.toList.drop srcMacThirdByte).take 4) : ℤ) = a.streamId
  destination : (Words.ofBE ((tx.ieeeHdr.toList.drop dstMacThirdByte).take 4) : ℤ) = a.streamId
  frameType : (tx.ieeeHdr[0].toNat : ℤ) = a.frameType
  mcsIndex : (tx.radiotapHt[mcsIdxOff].toNat : ℤ) = if a.mcsIndex = 0 then 1 else a.mcsIndex
  bandwidth : (if tx.radiotapHt[mcsFlagsOff] = mcsBw40 then 40 else 20) =
    if a.bandwidth = 0 then 20 else a.bandwidth

/-- A receiver with these integers, up to the default and the clamp of the ring size. -/
structure RxExact (a : RxArgs) (rx : WfbRx) : Prop where
  stream : ∃ id : UInt32, (id.toNat : ℤ) = a.streamId ∧ rx.pcap.filterExp = filterExp id
  ignore : rx.ignoreSelfInjected = a.ignoreSelfInjected
  ringSize : (rx.ringSize : ℤ) = max 2 (min (if a.ringSize = 0 then 16 else a.ringSize) 128)

/-- A `Tx` that is constructed works with the integers given. -/
def TxCarries (a : TxArgs) : Prop :=
  ∀ tx, a.Constructs tx → ∃ h, tx.handle = some h ∧ TxExact a h

/-- An `Rx` that is constructed works with the integers given. -/
def RxCarries (a : RxArgs) : Prop :=
  ∀ rx, a.Constructs rx → ∃ h, rx.handle = some h ∧ RxExact a h

/-- A `Tx` behind any calls of `send`. -/
inductive Sent (tx₀ : Tx) : Tx → Prop
  | refl : Sent tx₀ tx₀
  | send {tx : Tx} (h : Sent tx₀ tx) (payload : List UInt8) (seq : ℤ) (rc : Except SysError ℤ) :
      Sent tx₀ (Tx.send tx payload seq rc).tx

/-- The receiver gets the frame, and enters `f` for it. -/
def Gets (filter : String → List UInt8 → Bool) (rx : WfbRx) (frame : List UInt8) (f : Frame) : Prop :=
  ∃ hdr fcs m pkt, Captured frame hdr fcs m pkt ∧ entry filter rx pkt = some f

/-- A frame of a successful `send` reaches the receiver. -/
def Exchange (filter : String → List UInt8 → Bool) (tx₀ : Tx) (rx : WfbRx) : Prop :=
  ∃ tx payload seq rc iovecs f, Sent tx₀ tx ∧ (Tx.send tx payload seq rc).result = .ok () ∧
    (Tx.send tx payload seq rc).iovecs = some iovecs ∧ Gets filter rx iovecs.flatten f

/-- A call of `recv` answers with this metadata for the frame. -/
def Reports (filter : String → List UInt8 → Bool) (frame : List UInt8) (rxMeta : RxMeta) : Prop :=
  ∃ rx f timeoutMs world bufSize payload, WfbRx.Reachable rx ∧ Gets filter rx frame f ∧
    rx.queue.head? = some f ∧
    (Rx.recv ⟨some rx, false⟩ timeoutMs world (some bufSize)).result = some (.ok (payload, rxMeta))

/-- The receivers of a frame that was sent report the sequence number given. -/
def SendCarries (filter : String → List UInt8 → Bool) (tx : Tx) (payload : List UInt8) (seq : ℤ) :
    Prop :=
  ∀ rc iovecs, (Tx.send tx payload seq rc).result = .ok () →
    (Tx.send tx payload seq rc).iovecs = some iovecs →
    ∀ rxMeta, Reports filter iovecs.flatten rxMeta → rxMeta.seq = seq

/-- `recv` waits for the milliseconds given, or refuses them. -/
def RecvCarries (rx : WfbRx) (timeoutMs : ℤ) : Prop :=
  ∀ bufSize : ℤ, 0 < bufSize → ∀ world out,
    WfbRx.recv rx (List.replicate bufSize.toNat 0) (fromMillis timeoutMs.toNat) world = .ok out →
    (Rx.recv ⟨some rx, false⟩ timeoutMs world (some bufSize)).result = answer out ∨
      ∃ message, (Rx.recv ⟨some rx, false⟩ timeoutMs world (some bufSize)).result =
        some (.error (.valueError message))

/-! ### What is left of the integers -/

/-- The configuration that the native open sees. -/
def TxArgs.config (a : TxArgs) (name : String) : WfbTxConfig :=
  ⟨name, cUint32 a.streamId, cUint8 a.frameType, cUint8 a.mcsIndex, cUint8 a.bandwidth⟩

def RxArgs.config (a : RxArgs) (name : String) : WfbRxConfig :=
  ⟨name, cUint32 a.streamId, a.ignoreSelfInjected, (cUint32 a.ringSize).toNat⟩

/-- The integers of a `Tx` fit their C types. -/
def TxArgs.Fit (a : TxArgs) : Prop :=
  Fits 32 a.streamId ∧ Fits 8 a.frameType ∧ Fits 8 a.mcsIndex ∧ Fits 8 a.bandwidth

instance (a : TxArgs) : Decidable a.Fit := inferInstanceAs (Decidable (_ ∧ _))

/-- The library is loaded, and native open accepts what is left of the integers. -/
def TxArgs.Opens (a : TxArgs) : Prop :=
  a.iface ≠ "" ∧ a.capi = .ok () ∧ ∃ name, cIface (some (encode a.iface)) = .ok name ∧
    WfbTx.Accepts (a.config name)

def RxArgs.Opens (a : RxArgs) : Prop :=
  a.iface ≠ "" ∧ a.capi = .ok () ∧ ∃ name, cIface (some (encode a.iface)) = .ok name ∧ name ≠ "" ∧
    cUint32 a.streamId ≠ 0

/-- A ring size that fits, or whose rest modulo `2 ^ 32` is clamped to the same size. -/
def RingFits (ringSize : ℤ) : Prop :=
  Fits 32 ringSize ∨ (2 ^ 32 ≤ ringSize ∧ 128 ≤ ringSize % 2 ^ 32) ∨
    (ringSize < 0 ∧ (ringSize % 2 ^ 32 = 1 ∨ ringSize % 2 ^ 32 = 2))

lemma cUint32_eq_iff {n : ℤ} : ((cUint32 n).toNat : ℤ) = n ↔ Fits 32 n := by
  rw [toNat_cUint32, Fits]
  omega

lemma cUint8_eq_iff {n : ℤ} : ((cUint8 n).toNat : ℤ) = n ↔ Fits 8 n := by
  rw [toNat_cUint8, Fits]
  omega

/-- An index behind its default. -/
lemma mcsIndex_eq_iff {n : ℤ} :
    ((if cUint8 n = 0 then 1 else cUint8 n).toNat : ℤ) = (if n = 0 then 1 else n) ↔ Fits 8 n := by
  have hrest := toNat_cUint8 n
  have hzero : cUint8 n = 0 ↔ (cUint8 n).toNat = 0 := by rw [← UInt8.toNat_inj]; rfl
  rw [Fits]
  by_cases h : cUint8 n = 0
  · have hzero' : (cUint8 n).toNat = 0 := hzero.mp h
    rw [if_pos h, show (1 : UInt8).toNat = 1 from rfl]
    split <;> omega
  · have hpos : (cUint8 n).toNat ≠ 0 := mt hzero.mpr h
    rw [if_neg h]
    split <;> omega

/-- An accepted bandwidth behind its default. -/
lemma bandwidth_eq_iff {n : ℤ} (h : cUint8 n = 0 ∨ cUint8 n = 20 ∨ cUint8 n = 40) :
    (if cUint8 n = 40 then 40 else 20) = (if n = 0 then 20 else n) ↔ Fits 8 n := by
  have hrest := toNat_cUint8 n
  rw [Fits]
  rcases h with h | h | h <;> rw [h] at hrest ⊢
  · rw [if_neg (by decide), show (UInt8.toNat 0) = 0 from rfl] at *
    split <;> omega
  · rw [if_neg (by decide), show (UInt8.toNat 20) = 20 from rfl] at *
    split <;> omega
  · rw [if_pos rfl, show (UInt8.toNat 40) = 40 from rfl] at *
    split <;> omega

instance (ringSize : ℤ) : Decidable (RingFits ringSize) := inferInstanceAs (Decidable (_ ∨ _))

section Constructors

variable {a : TxArgs} {b : RxArgs}

lemma TxArgs.constructs_iff {tx : Tx} : a.Constructs tx ↔
    a.iface ≠ "" ∧ a.capi = .ok () ∧ ∃ name fd, cIface (some (encode a.iface)) = .ok name ∧
      WfbTx.Accepts (a.config name) ∧ tx = ⟨some (WfbTx.opened (a.config name) fd), false⟩ := by
  refine returns_construct.trans (and_congr_right' (and_congr_right' (exists_congr fun name => ?_)))
  constructor
  · rintro ⟨h, hname, hopen, rfl⟩
    obtain ⟨hacc, fd, rfl⟩ := WfbTx.returns_open.mp hopen
    exact ⟨fd, hname, hacc, rfl⟩
  · rintro ⟨fd, hname, hacc, rfl⟩
    exact ⟨_, hname, WfbTx.returns_open.mpr ⟨hacc, fd, rfl⟩, rfl⟩

lemma RxArgs.constructs_iff {rx : Rx} : b.Constructs rx ↔
    b.iface ≠ "" ∧ b.capi = .ok () ∧ ∃ name h, cIface (some (encode b.iface)) = .ok name ∧
      (WfbRx.open (b.config name)).Returns (.ok h) ∧ rx = ⟨some h, false⟩ := by
  have hignore : decide ((if b.ignoreSelfInjected then (1 : UInt8) else 0) ≠ 0) =
      b.ignoreSelfInjected := by
    cases b.ignoreSelfInjected <;> rfl
  refine returns_construct.trans ?_
  simp only [hignore, RxArgs.config]

/-- The address bytes of an opened transmitter are its stream. -/
lemma address_opened (cfg : WfbTxConfig) (fd : ℕ) {off : ℕ}
    (hoff : off = srcMacThirdByte ∨ off = dstMacThirdByte) :
    Words.ofBE (((WfbTx.opened cfg fd).ieeeHdr.toList.drop off).take 4) = cfg.streamId.toNat := by
  have hbytes : ((WfbTx.opened cfg fd).ieeeHdr.toList.drop off).take 4 =
      Words.toBE 4 cfg.streamId.toNat := by
    have htake : ((WfbTx.opened cfg fd).ieeeHdr.toList.drop off).take 4 =
        (((WfbTx.opened cfg fd).ieeeHdr.toList.take 22).drop off).take 4 := by
      rcases hoff with rfl | rfl <;> rw [List.drop_take, List.take_take] <;> rfl
    rw [htake, (WfbTx.opened_inv cfg fd).front]
    rcases hoff with rfl | rfl <;> rfl
  rw [hbytes, Words.ofBE_toBE cfg.streamId.toNat_lt]

/-- The headers of an opened transmitter. -/
lemma txExact_opened (cfg : WfbTxConfig) (fd : ℕ) : TxExact a (WfbTx.opened cfg fd) ↔
    (cfg.streamId.toNat : ℤ) = a.streamId ∧ (cfg.frameType.toNat : ℤ) = a.frameType ∧
      ((if cfg.mcsIndex = 0 then 1 else cfg.mcsIndex).toNat : ℤ) =
        (if a.mcsIndex = 0 then 1 else a.mcsIndex) ∧
      (if cfg.bandwidth = 40 then 40 else 20) = if a.bandwidth = 0 then 20 else a.bandwidth := by
  have hsource := address_opened cfg fd (.inl rfl)
  have hdestination := address_opened cfg fd (.inr rfl)
  have htype : (WfbTx.opened cfg fd).ieeeHdr[0] = cfg.frameType := by
    simp [WfbTx.opened, WfbTx.around, copyInto, srcMacThirdByte, dstMacThirdByte]
  have hmcs : (WfbTx.opened cfg fd).radiotapHt[mcsIdxOff] =
      if cfg.mcsIndex = 0 then 1 else cfg.mcsIndex := Vector.getElem_set_self _
  have hflags : (WfbTx.opened cfg fd).radiotapHt[mcsFlagsOff] = mcsBw40 ↔ cfg.bandwidth = 40 := by
    have hget : (WfbTx.opened cfg fd).radiotapHt[mcsFlagsOff] =
        if cfg.bandwidth = 40 then mcsBw40 else mcsBw20 := by
      simp [WfbTx.opened, WfbTx.radiotapOf, mcsFlagsOff, mcsIdxOff]
    rw [hget]
    by_cases h40 : cfg.bandwidth = 40
    · simp [h40]
    · simp [h40, mcsBw20, mcsBw40]
  constructor
  · rintro ⟨h₁, -, h₃, h₄, h₅⟩
    rw [hsource] at h₁
    rw [htype] at h₃
    rw [hmcs] at h₄
    simp only [hflags] at h₅
    exact ⟨h₁, h₃, h₄, h₅⟩
  · rintro ⟨h₁, h₃, h₄, h₅⟩
    exact ⟨by rw [hsource, h₁], by rw [hdestination, h₁], by rw [htype, h₃], by rw [hmcs, h₄],
      by simpa only [hflags] using h₅⟩

lemma txExact_narrowed {name : String} (fd : ℕ) (hacc : WfbTx.Accepts (a.config name)) :
    TxExact a (WfbTx.opened (a.config name) fd) ↔ a.Fit := by
  rw [txExact_opened, TxArgs.Fit]
  exact and_congr cUint32_eq_iff (and_congr cUint8_eq_iff (and_congr mcsIndex_eq_iff
    (bandwidth_eq_iff hacc.bandwidth)))

/-- A `Tx` works with its integers if and only if they fit, or what is left is refused. -/
lemma txCarries_iff : TxCarries a ↔ a.Fit ∨ ¬ a.Opens := by
  constructor
  · intro h
    by_cases hopens : a.Opens
    · obtain ⟨hiface, hcapi, name, hname, hacc⟩ := hopens
      obtain ⟨_, hhandle, hexact⟩ := h _ (TxArgs.constructs_iff.mpr ⟨hiface, hcapi, name, 0, hname, hacc, rfl⟩)
      obtain rfl := Option.some.inj hhandle
      exact .inl ((txExact_narrowed 0 hacc).mp hexact)
    · exact .inr hopens
  · rintro h tx hret
    obtain ⟨hiface, hcapi, name, fd, hname, hacc, rfl⟩ := TxArgs.constructs_iff.mp hret
    have hfits := h.resolve_right (not_not_intro ⟨hiface, hcapi, name, hname, hacc⟩)
    exact ⟨_, rfl, (txExact_narrowed fd hacc).mpr hfits⟩

/-- The ring of an opened receiver has the size asked for if and only if it is one of these. -/
lemma ringSizeOf_eq_iff {name : String} : (WfbRx.ringSizeOf (b.config name) : ℤ) =
      max 2 (min (if b.ringSize = 0 then 16 else b.ringSize) 128) ↔ RingFits b.ringSize := by
  have hrest := toNat_cUint32 b.ringSize
  have hsize : WfbRx.ringSizeOf (b.config name) =
      max 2 (min (if (cUint32 b.ringSize).toNat = 0 then 16 else (cUint32 b.ringSize).toNat) 128) :=
    rfl
  rw [hsize, RingFits, Fits]
  generalize (cUint32 b.ringSize).toNat = rest at hrest
  split <;> split <;> omega

/-- An `Rx` works with its integers if and only if they fit, up to the clamp of the ring size, or
what is left is refused. -/
lemma rxCarries_iff : RxCarries b ↔
    (Fits 32 b.streamId ∧ RingFits b.ringSize) ∨ ¬ b.Opens := by
  constructor
  · intro h
    by_cases hopens : b.Opens
    · obtain ⟨hiface, hcapi, name, hname, hne, hstream⟩ := hopens
      have hopen : (WfbRx.open (b.config name)).Returns (.ok _) :=
        WfbRx.returns_open.mpr ⟨hne, hstream, 0, rfl⟩
      obtain ⟨_, hhandle, hexact⟩ := h _ (RxArgs.constructs_iff.mpr ⟨hiface, hcapi, name, _, hname, hopen, rfl⟩)
      obtain rfl := Option.some.inj hhandle
      obtain ⟨id, hid, -⟩ := hexact.stream
      have hlt := id.toNat_lt
      exact .inl ⟨⟨by omega, by omega⟩, ringSizeOf_eq_iff.mp hexact.ringSize⟩
    · exact .inr hopens
  · rintro h rx hret
    obtain ⟨hiface, hcapi, name, handle, hname, hopen, rfl⟩ := RxArgs.constructs_iff.mp hret
    obtain ⟨hne, hstream, fd, rfl⟩ := WfbRx.returns_open.mp hopen
    obtain ⟨hfits, hring⟩ := h.resolve_right
      (not_not_intro ⟨hiface, hcapi, name, hname, hne, hstream⟩)
    exact ⟨_, rfl, ⟨_, cUint32_eq_iff.mpr hfits, rfl⟩, rfl, ringSizeOf_eq_iff.mpr hring⟩

end Constructors

/-! ### Frames -/

section Frames

variable {cfg : WfbTxConfig} {h : WfbTx} {rx : WfbRx} {filter : String → List UInt8 → Bool}
  {payload : List UInt8} {seq : UInt32} {f : Frame}

/-- Calls of `send` keep the headers of the handle. -/
lemma Sent.inv (hinv : WfbTx.HeaderInv cfg h) {tx : Tx} (hsent : Sent ⟨some h, false⟩ tx) :
    ∃ h', tx = ⟨some h', false⟩ ∧ WfbTx.HeaderInv cfg h' := by
  induction hsent with
  | refl => exact ⟨h, rfl, hinv⟩
  | send _ payload seq rc ih =>
      obtain ⟨h', rfl, hinv'⟩ := ih
      by_cases hlen : payload.length ≤ computeMaxPayload
      · obtain ⟨h'', _, hinv'', hsend, -⟩ := Tx.send_fits hinv' hlen seq rc
        exact ⟨h'', by rw [hsend], hinv''⟩
      · obtain ⟨e, hsend⟩ := Tx.send_too_large h' seq rc hlen
        exact ⟨h', by rw [hsend], hinv'⟩

/-- A frame of the handle. -/
def frameBytes (cfg : WfbTxConfig) (h : WfbTx) (payload : List UInt8) (seq : UInt32) : List UInt8 :=
  (WfbTx.iovecsOf cfg h payload seq).flatten

/-- The frame as an emission of a single handle. -/
lemma wellFormed_frameBytes (hinv : WfbTx.HeaderInv cfg h)
    (hlen : payload.length ≤ computeMaxPayload) (seq : UInt32) :
    Emission.WellFormed (fun _ : Unit => cfg)
      ⟨⟨(), payload, seq, .ok 0⟩, frameBytes cfg h payload seq⟩ :=
  ⟨hlen, h, hinv, rfl⟩

/-- The entry of a frame carries its payload and sequence number. -/
lemma Gets.eq (hinv : WfbTx.HeaderInv cfg h) (hlen : payload.length ≤ computeMaxPayload)
    (hrx : WfbRx.RingInv rx) (hgets : Gets filter rx (frameBytes cfg h payload seq) f) :
    f.payload = payload ∧ f.rxMeta.seq = seq := by
  obtain ⟨hdr, fcs, m, pkt, hcap, hentry⟩ := hgets
  have hacc := acceptedFrame_captured (wellFormed_frameBytes hinv hlen seq) hcap
    rx.ignoreSelfInjected
  rw [← hrx.max_eq] at hacc
  rw [entry, hacc] at hentry
  split at hentry
  · obtain rfl := Option.some.inj hentry
    exact ⟨rfl, rfl⟩
  · cases hentry

/-- A bare radiotap header decodes to this. -/
def bareMeta : RadiotapMeta := FieldState.toMeta { curOff := 8 } 8

lemma parse_bareHeader (rest : List UInt8) :
    radiotapMetaFromPacket (bareHeader ++ rest) = .ok (some bareMeta) := by
  have hpacket : bareHeader ++ rest = radiotapPacket (fun _ => 0) 8 [0] [] rest := rfl
  have hparse : radiotapMetaFromPacket (radiotapPacket (fun _ => 0) 8 [0] ([] ++ []) rest) =
      .ok (some ((readArgs { curOff := 4 + 4 * 1 } []).toMeta 8)) := by
    refine parse_radiotapPacket (by simp) (presentChain_presentBytes [] (by simp) (by decide)) rfl
      (by decide +kernel) (by simp) (le_of_eq rfl) ?_
    rw [length_radiotapPacket _ _ _ _ (by simp)]
    exact Nat.le_add_right 8 _
  rw [hpacket]
  exact hparse

/-- Every frame may be captured behind a bare header. -/
lemma captured_bareHeader (frame : List UInt8) :
    Captured frame bareHeader [] bareMeta (bareHeader ++ frame.drop 13) where
  bytes := (List.append_nil _).symm
  parses := parse_bareHeader _
  radiotapLen := rfl
  fcs_good := by decide
  not_injected := rfl
  fcs_length := by decide

/-- An opened receiver gets the frames of its stream, and no others. -/
lemma gets_iff {rcfg : WfbRxConfig} (hinv : WfbTx.HeaderInv cfg h)
    (hlen : payload.length ≤ computeMaxPayload) (hrx : (WfbRx.open rcfg).Returns (.ok rx))
    (hfilter : Implements filter) :
    (∃ f, Gets filter rx (frameBytes cfg h payload seq) f) ↔ cfg.streamId = rcfg.streamId := by
  have hwf := wellFormed_frameBytes hinv hlen seq
  constructor
  · rintro ⟨f, hdr, fcs, m, pkt, hcap, hentry⟩
    rw [entry_captured hrx hfilter hwf hcap] at hentry
    split at hentry
    · assumption
    · cases hentry
  · intro hstream
    have hcap := captured_bareHeader (frameBytes cfg h payload seq)
    exact ⟨_, _, _, _, _, hcap, by rw [entry_captured hrx hfilter hwf hcap, if_pos hstream]⟩

/-- The frames of a handle reach the receivers with its rest modulo `2 ^ 32`. -/
lemma exchange_iff {rcfg : WfbRxConfig} (hinv : WfbTx.HeaderInv cfg h)
    (hrx : (WfbRx.open rcfg).Returns (.ok rx)) (hfilter : Implements filter) :
    Exchange filter ⟨some h, false⟩ rx ↔ cfg.streamId = rcfg.streamId := by
  constructor
  · rintro ⟨tx, payload, seq, rc, iovecs, f, hsent, hresult, hiovecs, hgets⟩
    obtain ⟨h', rfl, hinv'⟩ := hsent.inv hinv
    by_cases hlen : payload.length ≤ computeMaxPayload
    · obtain ⟨h'', _, hinv'', hsend, -⟩ := Tx.send_fits hinv' hlen seq rc
      rw [hsend] at hiovecs
      obtain rfl := Option.some.inj hiovecs
      exact (gets_iff hinv'' hlen hrx hfilter).mp ⟨f, hgets⟩
    · obtain ⟨e, hsend⟩ := Tx.send_too_large h' seq rc hlen
      rw [hsend] at hresult
      cases hresult
  · intro hstream
    have hlen : ([] : List UInt8).length ≤ computeMaxPayload := Nat.zero_le _
    obtain ⟨h', result, hinv', hsend, hok⟩ := Tx.send_fits hinv hlen 0 (.ok 0)
    obtain ⟨f, hgets⟩ := (gets_iff hinv' hlen hrx hfilter).mpr hstream
    exact ⟨_, [], 0, .ok 0, _, f, .refl, by rw [hsend, hok.mpr ⟨0, rfl⟩], by rw [hsend], hgets⟩

lemma replicate_ne_nil {bufSize : ℤ} (h : 0 < bufSize) :
    List.replicate bufSize.toNat (0 : UInt8) ≠ [] := by
  rw [Ne, List.replicate_eq_nil_iff]
  omega

/-- A call of `recv` that returns a frame has passed its checks. -/
lemma Rx.recv_checks {timeoutMs bufSize : ℤ} {world : World} {data : List UInt8} {rxMeta : RxMeta}
    (hrecv : (Rx.recv ⟨some rx, false⟩ timeoutMs world (some bufSize)).result =
      some (.ok (data, rxMeta))) : 0 ≤ timeoutMs ∧ 0 < bufSize := by
  by_cases htimeout : timeoutMs < 0
  · simp [Rx.recv, htimeout] at hrecv
  by_cases hsize : bufSize ≤ 0
  · simp [Rx.recv, htimeout, hsize] at hrecv
  · omega

/-- It reports the sequence number of the oldest frame in the ring. -/
lemma Rx.recv_seq (hrx : WfbRx.RingInv rx) (hhead : rx.queue.head? = some f)
    {timeoutMs bufSize : ℤ} {world : World} {data : List UInt8} {rxMeta : RxMeta}
    (hrecv : (Rx.recv ⟨some rx, false⟩ timeoutMs world (some bufSize)).result =
      some (.ok (data, rxMeta))) : rxMeta.seq = f.rxMeta.seq.toNat := by
  obtain ⟨htimeout, hsize⟩ := Rx.recv_checks hrecv
  obtain ⟨f', out, hhead', hresult, hout⟩ :=
    WfbRx.recv_queued hrx (WfbRx.ringCount_pos hhead) (replicate_ne_nil hsize) world
  obtain rfl : f' = f := Option.some.inj (hhead'.symm.trans hhead)
  rw [Rx.recv_eq htimeout hsize (hout _), answer, hresult] at hrecv
  obtain rfl := (Prod.mk.inj (Except.ok.inj (Option.some.inj hrecv))).2
  rfl

/-- A receiver of the stream reports the sequence number in the frame. -/
lemma exists_reports (hinv : WfbTx.HeaderInv cfg h) (hlen : payload.length ≤ computeMaxPayload)
    (hfilter : Implements filter) (hstream : cfg.streamId ≠ 0) (seq : UInt32) :
    ∃ rxMeta, Reports filter (frameBytes cfg h payload seq) rxMeta ∧ rxMeta.seq = seq.toNat := by
  obtain ⟨rx₀, hrx₀⟩ : ∃ rx₀, (WfbRx.open ⟨"wlan0", cfg.streamId, false, 4⟩).Returns (.ok rx₀) :=
    ⟨_, WfbRx.returns_open.mpr ⟨show "wlan0" ≠ "" by decide, hstream, 0, rfl⟩⟩
  obtain ⟨hinv₀, hempty⟩ := WfbRx.opened_inv hrx₀
  obtain ⟨pkt, hcap⟩ : ∃ pkt, Captured (frameBytes cfg h payload seq) bareHeader [] bareMeta pkt :=
    ⟨_, captured_bareHeader _⟩
  obtain ⟨f, hentry⟩ : ∃ f, entry filter rx₀ pkt = some f :=
    ⟨_, by rw [entry_captured hrx₀ hfilter (wellFormed_frameBytes hinv hlen seq) hcap, if_pos rfl]⟩
  -- behind the packet the receiver has the frame alone in its ring
  have hstep := WfbRx.parseAndEnqueueOnePacket_eq hinv₀ hcap.parses
  have hreach : (WfbRx.received rx₀ pkt).Reachable := .packet (.opened hrx₀) pkt hstep
  obtain ⟨hrx, hconfig, hqueue⟩ := WfbRx.received_spec hinv₀ pkt
  generalize WfbRx.received rx₀ pkt = rx at hreach hrx hconfig hqueue
  have hgets : Gets filter rx (frameBytes cfg h payload seq) f :=
    ⟨_, _, _, pkt, hcap, by rw [entry_congr hconfig, hentry]⟩
  have hhead : rx.queue.head? = some f := by
    rw [entry] at hentry
    split at hentry
    · rw [hqueue, hentry, Option.elim_some, hempty, RingBuffer.offer, List.length_nil,
        if_pos hinv₀.size_pos]
      rfl
    · cases hentry
  have hsize : (0 : ℤ) < 1 := by decide
  obtain ⟨f', out, hhead', hresult, hout⟩ :=
    WfbRx.recv_queued hrx (WfbRx.ringCount_pos hhead) (replicate_ne_nil hsize) ⟨[], [], []⟩
  have hrecv := Rx.recv_eq (le_refl (0 : ℤ)) hsize (hout _)
  rw [answer, hresult] at hrecv
  refine ⟨_, ⟨rx, f, 0, _, 1, _, hreach, hgets, hhead, hrecv⟩, ?_⟩
  rw [Rx.recv_seq hrx hhead hrecv, (hgets.eq hinv hlen hrx).2]

/-- **The sequence number.** Receivers report the one given if and only if it fits 32 bits, or
nothing is sent. -/
lemma sendCarries_iff (hinv : WfbTx.HeaderInv cfg h) (hfilter : Implements filter)
    (hstream : cfg.streamId ≠ 0) {seq : ℤ} :
    SendCarries filter ⟨some h, false⟩ payload seq ↔
      Fits 32 seq ∨ computeMaxPayload < payload.length := by
  by_cases hlen : payload.length ≤ computeMaxPayload
  swap
  · refine iff_of_true (fun rc iovecs hresult _ => ?_) (.inr (Nat.lt_of_not_le hlen))
    obtain ⟨e, hsend⟩ := Tx.send_too_large h seq rc hlen
    rw [hsend] at hresult
    cases hresult
  constructor
  · intro hcarries
    obtain ⟨h', result, hinv', hsend, hok⟩ := Tx.send_fits hinv hlen seq (.ok 0)
    obtain ⟨rxMeta, hreports, hseq⟩ := exists_reports hinv' hlen hfilter hstream (cUint32 seq)
    have hcarried := hcarries (.ok 0) _ (by rw [hsend, hok.mpr ⟨0, rfl⟩]) (by rw [hsend]) rxMeta hreports
    exact .inl (cUint32_eq_iff.mp (hseq.symm.trans hcarried))
  · rintro (hfits | hlarge) rc iovecs hresult hiovecs rxMeta hreports
    · obtain ⟨h', _, hinv', hsend, -⟩ := Tx.send_fits hinv hlen seq rc
      rw [hsend] at hiovecs
      obtain rfl := Option.some.inj hiovecs
      obtain ⟨rx, f, _, _, _, _, hreach, hgets, hhead, hrecv⟩ := hreports
      rw [Rx.recv_seq hreach.inv hhead hrecv, (hgets.eq hinv' hlen hreach.inv).2,
        cUint32_eq_iff.mpr hfits]
    · omega

/-- **The timeout.** `recv` waits for the one given if and only if it fits 32 bits, or a frame
waits in the ring. -/
lemma recvCarries_iff (hrx : WfbRx.RingInv rx) {timeoutMs : ℤ} (hpos : 0 ≤ timeoutMs) :
    RecvCarries rx timeoutMs ↔ Fits 32 timeoutMs ∨ 0 < rx.ringCount := by
  constructor
  · intro hcarries
    by_contra hno
    obtain ⟨hlarge, hempty⟩ := not_or.mp hno
    have hcount : rx.ringCount = 0 := by omega
    have hsize : (0 : ℤ) < 1 := by decide
    have hrest := toNat_cUint32 timeoutMs
    have hless : fromMillis (cUint32 timeoutMs).toNat < fromMillis timeoutMs.toNat := by
      rw [Fits] at hlarge
      simp only [fromMillis]
      omega
    -- the clock stops between the two deadlines
    obtain ⟨world, hworld⟩ : ∃ world : World,
        world = ⟨[0, fromMillis (cUint32 timeoutMs).toNat], [], []⟩ := ⟨_, rfl⟩
    obtain ⟨out, hout, hnone⟩ : ∃ out, WfbRx.recv rx (List.replicate (1 : ℤ).toNat 0)
        (fromMillis timeoutMs.toNat) world = .ok out ∧ out.result = none := by
      rw [hworld]
      exact WfbRx.recv_running hcount (replicate_ne_nil hsize) hless
    obtain ⟨out', hout', htimeout⟩ : ∃ out, WfbRx.recv rx (List.replicate (1 : ℤ).toNat 0)
        (fromMillis (cUint32 timeoutMs).toNat) world = .ok out ∧ out.result = some (.ok none) := by
      rw [hworld]
      exact WfbRx.recv_expired hcount (replicate_ne_nil hsize) le_rfl
    have hrecv := Rx.recv_eq hpos hsize hout'
    rw [answer, htimeout] at hrecv
    rcases hcarries 1 hsize world out hout with hsame | ⟨message, hrefused⟩
    · rw [hrecv, answer, hnone] at hsame
      cases hsame
    · rw [hrecv] at hrefused
      cases hrefused
  · rintro (hfits | hcount) bufSize hsize world out hout
    · have hsame : (cUint32 timeoutMs).toNat = timeoutMs.toNat := by
        have h := cUint32_eq_iff.mpr hfits
        omega
      exact .inl (Rx.recv_eq hpos hsize (by rw [hsame, hout]))
    · obtain ⟨f, out', -, -, hout'⟩ := WfbRx.recv_queued hrx hcount (replicate_ne_nil hsize) world
      obtain rfl := Except.ok.inj ((hout' _).symm.trans hout)
      exact .inl (Rx.recv_eq hpos hsize (hout' _))

end Frames

/-! ### The boundary -/

/-- A constructed `Tx` is an opened transmitter. -/
lemma TxArgs.Constructs.inv {a : TxArgs} {tx : Tx} (h : a.Constructs tx) :
    ∃ name h, tx = ⟨some h, false⟩ ∧ WfbTx.HeaderInv (a.config name) h ∧
      (a.config name).streamId ≠ 0 := by
  obtain ⟨-, -, name, fd, -, hacc, rfl⟩ := TxArgs.constructs_iff.mp h
  exact ⟨name, _, rfl, WfbTx.opened_inv _ fd, hacc.stream⟩

/-- What is left of two integers is the same when they agree modulo `2 ^ 32`. -/
lemma cUint32_inj {m n : ℤ} : cUint32 m = cUint32 n ↔ m % 2 ^ 32 = n % 2 ^ 32 := by
  rw [← toNat_cUint32, ← toNat_cUint32, Nat.cast_inj, UInt32.toNat_inj]

/-- No call changes its integers: what is constructed works with those given, two objects exchange
frames on one stream only, a frame keeps its sequence number, and `recv` its timeout. -/
structure CarriesAll (filter : String → List UInt8 → Bool) : Prop where
  tx : ∀ a : TxArgs, TxCarries a
  rx : ∀ b : RxArgs, RxCarries b
  exchange : ∀ (a : TxArgs) (b : RxArgs) (tx : Tx) (h : WfbRx), a.Constructs tx →
    b.Constructs ⟨some h, false⟩ → Exchange filter tx h → a.streamId = b.streamId
  seq : ∀ (a : TxArgs) (tx tx' : Tx) (payload : List UInt8) (seq : ℤ), a.Constructs tx →
    Sent tx tx' → SendCarries filter tx' payload seq
  timeout : ∀ (h : WfbRx) (timeoutMs : ℤ), WfbRx.Reachable h → 0 ≤ timeoutMs →
    RecvCarries h timeoutMs

/-- **The boundary.** Each call does what its integers say if and only if they fit their C types,
or nothing is done with what is left of them. -/
theorem boundary_carries_iff {filter : String → List UInt8 → Bool} (hfilter : Implements filter) :
    (∀ a : TxArgs, TxCarries a ↔ a.Fit ∨ ¬ a.Opens) ∧
    (∀ b : RxArgs, RxCarries b ↔ (Fits 32 b.streamId ∧ RingFits b.ringSize) ∨ ¬ b.Opens) ∧
    (∀ (a : TxArgs) (b : RxArgs) (tx : Tx) (h : WfbRx), a.Constructs tx →
      b.Constructs ⟨some h, false⟩ →
      ((Exchange filter tx h → a.streamId = b.streamId) ↔
        (a.streamId % 2 ^ 32 = b.streamId % 2 ^ 32 → a.streamId = b.streamId))) ∧
    (∀ (a : TxArgs) (tx tx' : Tx) (payload : List UInt8) (seq : ℤ), a.Constructs tx →
      Sent tx tx' →
      (SendCarries filter tx' payload seq ↔ Fits 32 seq ∨ computeMaxPayload < payload.length)) ∧
    ∀ (h : WfbRx) (timeoutMs : ℤ), WfbRx.Reachable h → 0 ≤ timeoutMs →
      (RecvCarries h timeoutMs ↔ Fits 32 timeoutMs ∨ 0 < h.ringCount) := by
  refine ⟨fun a => txCarries_iff, fun b => rxCarries_iff, ?_, ?_, ?_⟩
  · intro a b tx h htx hrx
    obtain ⟨name, handle, rfl, hinv, -⟩ := htx.inv
    obtain ⟨-, -, name', h', -, hopen, hh⟩ := RxArgs.constructs_iff.mp hrx
    obtain rfl := Option.some.inj (congrArg Wrapper.handle hh)
    rw [exchange_iff hinv hopen hfilter]
    exact imp_congr cUint32_inj Iff.rfl
  · intro a tx tx' payload seq htx hsent
    obtain ⟨name, handle, rfl, hinv, hstream⟩ := htx.inv
    obtain ⟨handle', rfl, hinv'⟩ := hsent.inv hinv
    exact sendCarries_iff hinv' hfilter hstream
  · intro h timeoutMs hreach hpos
    exact recvCarries_iff hreach.inv hpos

/-- A transmitter on stream 1 and a receiver on stream 2. -/
def tx1 : TxArgs := ⟨.ok (), "wlan0", 1, 0x08, 1, 20⟩

def rx2 : RxArgs := ⟨.ok (), "wlan0", 2, true, 16⟩

lemma cIface_wlan0 : cIface (some (encode "wlan0")) = .ok "wlan0" := by decide +kernel

lemma constructs_tx1 : tx1.Constructs ⟨some (WfbTx.opened (tx1.config "wlan0") 3), false⟩ :=
  TxArgs.constructs_iff.mpr ⟨by decide, rfl, "wlan0", 3, cIface_wlan0,
    ⟨by decide, by decide, .inl rfl, by decide, by decide, .inr (.inl rfl)⟩, rfl⟩

lemma constructs_rx2 :
    rx2.Constructs ⟨some (WfbRx.fresh (rx2.config "wlan0") ⟨3, filterExp 2⟩), false⟩ :=
  RxArgs.constructs_iff.mpr ⟨by decide, rfl, "wlan0", _, cIface_wlan0,
    WfbRx.returns_open.mpr ⟨by decide, by decide, 3, rfl⟩, rfl⟩

theorem tx1_rx2_carry : TxCarries tx1 ∧ RxCarries rx2 ∧
    ¬ Exchange eval ⟨some (WfbTx.opened (tx1.config "wlan0") 3), false⟩
      (WfbRx.fresh (rx2.config "wlan0") ⟨3, filterExp 2⟩) ∧
    SendCarries eval ⟨some (WfbTx.opened (tx1.config "wlan0") 3), false⟩ [0x70] 7 ∧
    RecvCarries WfbRx.onWlan0 100 := by
  obtain ⟨htx, hrx, hexchange, hseq, htimeout⟩ := boundary_carries_iff implements_eval
  refine ⟨(htx tx1).mpr (.inl (by decide)), (hrx rx2).mpr (.inl (by decide)), fun h => ?_, ?_, ?_⟩
  · have heq := (hexchange tx1 rx2 _ _ constructs_tx1 constructs_rx2).mpr
      (fun hrest => absurd hrest (by decide)) h
    exact absurd heq (by decide)
  · exact (hseq tx1 _ _ [0x70] 7 constructs_tx1 .refl).mpr (.inl (by decide))
  · exact (htimeout WfbRx.onWlan0 100 (.opened WfbRx.opened_onWlan0) (by decide)).mpr
      (.inl (by decide))

/-- The stream `2 ^ 32 + 1` becomes stream 1. -/
theorem not_carriesAll : ¬ CarriesAll eval := by
  intro h
  have hopens : TxArgs.Opens { tx1 with streamId := 2 ^ 32 + 1 } :=
    ⟨by decide, rfl, "wlan0", cIface_wlan0, by decide, by decide, .inl rfl, by decide, by decide,
      .inr (.inl rfl)⟩
  rcases txCarries_iff.mp (h.tx { tx1 with streamId := 2 ^ 32 + 1 }) with hfits | hno
  · exact absurd hfits.1.2 (by decide)
  · exact hno hopens

end Python

end WfbRs
