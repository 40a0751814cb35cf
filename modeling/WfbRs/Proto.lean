import WfbRs.Lib.Descriptor
import WfbRs.Lib.Words

/-!
# Framing and shared types (`proto.rs`)

The plaintext header of a frame with its codec, the configurations of the two handles,
the metadata of a received frame, and the errors of the library.
-/

namespace WfbRs

open Rust

def wfbProtoVersion : UInt8 := 0

def wfbFrameTypeData : UInt8 := 0x08

def wfbFrameTypeRts : UInt8 := 0xb4

def wfbPlaintextHdrLen : ℕ := 1 + 4 + 2 + 1

def iee80211HeaderLen : ℕ := 24

def wifiMtu : ℕ := 4045

def computeMaxPayload : ℕ := wifiMtu - iee80211HeaderLen - wfbPlaintextHdrLen

@[simp] lemma computeMaxPayload_eq : computeMaxPayload = 4013 := rfl

/-- A failed call to the system, with its `errno` and, where the call is one of the capture
library, its text. -/
structure SysError where
  errno : ℤ
  text : String
deriving DecidableEq, Repr

/-- Programs over the descriptors of the process. -/
abbrev SysProg (α : Type) : Type := Descriptor.Prog SysError α

/-- The errors of the library.  An operating-system error is its `errno`, an error of the
capture library its text. -/
inductive WfbError
  | invalidArgument (msg : String)
  | io (errno : ℤ)
  | pcap (msg : String)
deriving DecidableEq, Repr

structure WfbTxConfig where
  iface : String
  streamId : UInt32
  frameType : UInt8
  mcsIndex : UInt8
  bandwidth : UInt8
deriving DecidableEq, Repr

structure WfbRxConfig where
  iface : String
  streamId : UInt32
  ignoreSelfInjected : Bool
  ringSize : ℕ
deriving DecidableEq, Repr

/-- The metadata of a received frame; `default` is the one of the source. -/
structure WfbRxMeta where
  seq : UInt32 := 0
  flags : UInt8 := 0
  freq : UInt16 := 0
  mcsIndex : UInt8 := 0
  bandwidth : UInt8 := 0
  antenna : Vector UInt8 4 := Vector.replicate 4 0
  rssi : Vector Int8 4 := Vector.replicate 4 0
  noise : Vector Int8 4 := Vector.replicate 4 0
  antennaCount : UInt8 := 0
  truncated : Bool := false
deriving DecidableEq, Inhabited

structure WfbFrameHeader where
  version : UInt8
  seq : UInt32
  payloadLen : UInt16
  flags : UInt8
deriving DecidableEq, Repr

namespace WfbFrameHeader

def encode (h : WfbFrameHeader) : Checked (List UInt8) := do
  let out := List.replicate wfbPlaintextHdrLen 0
  let out ← setIndex out 0 h.version
  let out ← copyFromSlice out 1 5 (Words.toBE 4 h.seq.toNat)
  let out ← copyFromSlice out 5 7 (Words.toBE 2 h.payloadLen.toNat)
  setIndex out 7 h.flags

def decode (buf : List UInt8) : Checked (Except WfbError (WfbFrameHeader × ℕ)) := do
  if buf.length < wfbPlaintextHdrLen then
    return .error (.invalidArgument s!"buffer too small for hdr: {buf.length}")
  let version ← index buf 0
  let seq := Words.ofBE [← index buf 1, ← index buf 2, ← index buf 3, ← index buf 4]
  let payloadLen := Words.ofBE [← index buf 5, ← index buf 6]
  let flags ← index buf 7
  return .ok (⟨version, UInt32.ofNat seq, UInt16.ofNat payloadLen, flags⟩, wfbPlaintextHdrLen)

/-- The eight bytes of a header. -/
def bytes (h : WfbFrameHeader) : List UInt8 :=
  h.version :: (Words.toBE 4 h.seq.toNat ++ Words.toBE 2 h.payloadLen.toNat ++ [h.flags])

@[simp] lemma length_bytes (h : WfbFrameHeader) : h.bytes.length = 8 := by simp [bytes]

lemma bytes_head (h : WfbFrameHeader) : h.bytes.head? = some h.version := rfl

lemma bytes_seq (h : WfbFrameHeader) : Words.ofBE ((h.bytes.drop 1).take 4) = h.seq.toNat := by
  have hseq : (h.bytes.drop 1).take 4 = Words.toBE 4 h.seq.toNat := by
    rw [bytes, List.drop_succ_cons, List.drop_zero, List.append_assoc,
      List.take_left' (Words.length_toBE _ _)]
  rw [hseq, Words.ofBE_toBE h.seq.toNat_lt]

lemma bytes_payloadLen (h : WfbFrameHeader) :
    Words.ofBE ((h.bytes.drop 5).take 2) = h.payloadLen.toNat := by
  have hlen : (h.bytes.drop 5).take 2 = Words.toBE 2 h.payloadLen.toNat := by
    rw [bytes, List.drop_succ_cons, List.append_assoc, List.drop_left' (Words.length_toBE _ _),
      List.take_left' (Words.length_toBE _ _)]
  rw [hlen, Words.ofBE_toBE h.payloadLen.toNat_lt]

lemma bytes_flags (h : WfbFrameHeader) : h.bytes.getD 7 0 = h.flags := rfl

lemma encode_eq (h : WfbFrameHeader) : h.encode = .ok h.bytes := by
  obtain ⟨a, b, c, d, hs⟩ : ∃ a b c d, Words.toBE 4 h.seq.toNat = [a, b, c, d] :=
    ⟨_, _, _, _, rfl⟩
  obtain ⟨e, f, hp⟩ : ∃ e f, Words.toBE 2 h.payloadLen.toNat = [e, f] := ⟨_, _, rfl⟩
  simp only [encode, bytes, hs, hp]
  rfl

/-- Eight bytes are the header they decode to. -/
lemma decode_eq {buf : List UInt8} (hlen : buf.length = 8) :
    ∃ h : WfbFrameHeader, decode buf = .ok (.ok (h, 8)) ∧ h.bytes = buf := by
  obtain ⟨v, s₃, s₂, s₁, s₀, l₁, l₀, f, rfl⟩ :
      ∃ v s₃ s₂ s₁ s₀ l₁ l₀ f, buf = [v, s₃, s₂, s₁, s₀, l₁, l₀, f] := by
    match buf, hlen with
    | [v, s₃, s₂, s₁, s₀, l₁, l₀, f], _ => exact ⟨v, s₃, s₂, s₁, s₀, l₁, l₀, f, rfl⟩
  refine ⟨⟨v, UInt32.ofNat (Words.ofBE [s₃, s₂, s₁, s₀]), UInt16.ofNat (Words.ofBE [l₁, l₀]), f⟩,
    rfl, ?_⟩
  have hs := Words.toNat_ofBE_four (l := [s₃, s₂, s₁, s₀]) rfl
  have hl := Words.toNat_ofBE_two (l := [l₁, l₀]) rfl
  have hs' := Words.toBE_ofBE [s₃, s₂, s₁, s₀]
  have hl' := Words.toBE_ofBE [l₁, l₀]
  simp only [List.length_cons, List.length_nil, zero_add, Nat.reduceAdd] at hs' hl'
  simp only [bytes, hs, hl, hs', hl']
  rfl

/-- A header is determined by its bytes. -/
lemma bytes_injective : Function.Injective bytes := by
  intro h h' heq
  have hlen : (Words.toBE 4 h.seq.toNat).length = (Words.toBE 4 h'.seq.toNat).length := by simp
  simp only [bytes, List.cons.injEq, List.append_assoc] at heq
  obtain ⟨hv, heq⟩ := heq
  obtain ⟨hs, heq⟩ := List.append_inj heq hlen
  obtain ⟨hp, hf⟩ := List.append_inj heq (by simp)
  have hseq : h.seq = h'.seq := by
    have := congrArg Words.ofBE hs
    rw [Words.ofBE_toBE h.seq.toNat_lt, Words.ofBE_toBE h'.seq.toNat_lt] at this
    exact UInt32.toNat_inj.mp this
  have hpay : h.payloadLen = h'.payloadLen := by
    have := congrArg Words.ofBE hp
    rw [Words.ofBE_toBE h.payloadLen.toNat_lt, Words.ofBE_toBE h'.payloadLen.toNat_lt] at this
    exact UInt16.toNat_inj.mp this
  obtain ⟨v, s, p, f⟩ := h
  obtain ⟨v', s', p', f'⟩ := h'
  simp_all

/-- Decoding undoes encoding. -/
theorem decode_bytes (h : WfbFrameHeader) : decode h.bytes = .ok (.ok (h, 8)) := by
  obtain ⟨h', hdec, hbytes⟩ := decode_eq h.length_bytes
  rw [hdec, bytes_injective hbytes]

example : decode [0, 0x12, 0x34, 0x56, 0x78, 0, 42, 7] =
    .ok (.ok (⟨0, 0x12345678, 42, 7⟩, wfbPlaintextHdrLen)) := by rfl

end WfbFrameHeader

end WfbRs
