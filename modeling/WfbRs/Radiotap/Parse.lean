import WfbRs.Proto

/-!
# The radiotap parser (`radiotap_meta_from_packet` of `rx.rs`)

Line by line the parser of the capture header that the driver puts in front of every
802.11 frame: the loop over the present words, the loop over the present bits, and the
reading of one field.
-/

namespace WfbRs

open Rust

/-! ### Radiotap field indices -/

@[match_pattern] abbrev rtapTsft : ℕ := 0
@[match_pattern] abbrev rtapFlags : ℕ := 1
@[match_pattern] abbrev rtapRate : ℕ := 2
@[match_pattern] abbrev rtapChannel : ℕ := 3
@[match_pattern] abbrev rtapFhss : ℕ := 4
@[match_pattern] abbrev rtapDbmAntsignal : ℕ := 5
@[match_pattern] abbrev rtapDbmAntnoise : ℕ := 6
@[match_pattern] abbrev rtapLockQuality : ℕ := 7
@[match_pattern] abbrev rtapTxAttenuation : ℕ := 8
@[match_pattern] abbrev rtapDbTxAttenuation : ℕ := 9
@[match_pattern] abbrev rtapDbmTxPower : ℕ := 10
@[match_pattern] abbrev rtapAntenna : ℕ := 11
@[match_pattern] abbrev rtapDbAntsignal : ℕ := 12
@[match_pattern] abbrev rtapDbAntnoise : ℕ := 13
@[match_pattern] abbrev rtapRxFlags : ℕ := 14
@[match_pattern] abbrev rtapTxFlags : ℕ := 15
@[match_pattern] abbrev rtapRtsRetries : ℕ := 16
@[match_pattern] abbrev rtapDataRetries : ℕ := 17
@[match_pattern] abbrev rtapMcs : ℕ := 19
@[match_pattern] abbrev rtapAmpduStatus : ℕ := 20
@[match_pattern] abbrev rtapVht : ℕ := 21
@[match_pattern] abbrev rtapTimestamp : ℕ := 22

def rtapFFcs : UInt8 := 0x10

def rtapFBadfcs : UInt8 := 0x40

def rtapMcsHaveMcs : UInt8 := 0x02

def rtapMcsHaveBw : UInt8 := 0x01

/-! ### Reading integers -/

def leU16 (x : List UInt8) : Checked UInt16 := do
  return UInt16.ofNat (Words.ofLE [← index x 0, ← index x 1])

def leU32 (x : List UInt8) : Checked UInt32 := do
  return UInt32.ofNat (Words.ofLE [← index x 0, ← index x 1, ← index x 2, ← index x 3])

def alignUp (v align : ℕ) : Checked ℕ := do
  if align ≤ 1 then return v
  return (← uadd v (← usub align 1)) &&& unot (← usub align 1)

structure RadiotapMeta where
  rtFlags : UInt8
  selfInjected : Bool
  freq : UInt16
  antenna : Vector UInt8 4
  rssi : Vector Int8 4
  noise : Vector Int8 4
  antCount : UInt8
  mcsIndex : UInt8
  bandwidth : UInt8
  radiotapLen : ℕ
deriving DecidableEq

/-! ### The present words -/

/-- The state of the loop over the present words. -/
structure PresentState where
  presentWords : List UInt32
  pOff : ℕ

/-- One round of the loop over the present words; `ret` is the `return None` of a word that
does not fit the packet. -/
def presentRound (pkt : List UInt8) (s : PresentState) : Checked (Flow PresentState Unit) := do
  if (← uadd s.pOff 4) > pkt.length then return .ret ()
  let w ← leU32 (← slice pkt s.pOff (← uadd s.pOff 4))
  let presentWords := s.presentWords ++ [w &&& 0x7fffffff]
  let pOff ← uadd s.pOff 4
  if w &&& 0x80000000 ≠ 0 then return .next ⟨presentWords, pOff⟩
  return .brk ⟨presentWords, pOff⟩

/-! ### The fields -/

/-- Alignment and size of a field. -/
def fieldLayout (field : ℕ) : Option (ℕ × ℕ) :=
  match field with
  | rtapTsft => some (8, 8)
  | rtapFlags => some (1, 1)
  | rtapRate => some (1, 1)
  | rtapChannel => some (2, 4)
  | rtapFhss => some (2, 2)
  | rtapDbmAntsignal => some (1, 1)
  | rtapDbmAntnoise => some (1, 1)
  | rtapLockQuality => some (2, 2)
  | rtapTxAttenuation => some (2, 2)
  | rtapDbTxAttenuation => some (2, 2)
  | rtapDbmTxPower => some (1, 1)
  | rtapAntenna => some (1, 1)
  | rtapDbAntsignal => some (1, 1)
  | rtapDbAntnoise => some (1, 1)
  | rtapRxFlags => some (2, 2)
  | rtapTxFlags => some (2, 2)
  | rtapRtsRetries => some (1, 1)
  | rtapDataRetries => some (1, 1)
  | rtapMcs => some (1, 3)
  | rtapAmpduStatus => some (4, 8)
  | rtapVht => some (2, 12)
  | rtapTimestamp => some (8, 12)
  | _ => none

/-- The state of the loop over the present bits. -/
structure FieldState where
  curOff : ℕ
  antenna : Vector UInt8 4 := Vector.replicate 4 0xff
  rssi : Vector Int8 4 := Vector.replicate 4 Int8.minValue
  noise : Vector Int8 4 := Vector.replicate 4 Int8.maxValue
  antIdx : ℕ := 0
  rtFlags : UInt8 := 0
  selfInjected : Bool := false
  freq : UInt16 := 0
  mcsIndex : UInt8 := 0
  bandwidth : UInt8 := 20
deriving DecidableEq

/-- The `match field` of the loop: what the bytes of one field change. -/
def readField (field : ℕ) (fieldBytes : List UInt8) (st : FieldState) : Checked FieldState :=
  match field with
  | rtapAntenna => do
      if st.antIdx < 4 then
        return { st with
          antenna := ← setArray st.antenna st.antIdx (← index fieldBytes 0)
          antIdx := ← uadd st.antIdx 1 }
      return st
  | rtapDbmAntsignal => do
      if st.antIdx < 4 then
        return { st with rssi := ← setArray st.rssi st.antIdx (← index fieldBytes 0).toInt8 }
      return st
  | rtapDbmAntnoise => do
      if st.antIdx < 4 then
        return { st with noise := ← setArray st.noise st.antIdx (← index fieldBytes 0).toInt8 }
      return st
  | rtapChannel => do
      return { st with freq := ((← leU32 fieldBytes) &&& 0xffff).toUInt16 }
  | rtapFlags => do
      return { st with rtFlags := ← index fieldBytes 0 }
  | rtapTxFlags => return { st with selfInjected := true }
  | rtapMcs => do
      let mcsHave ← index fieldBytes 0
      let mut st := st
      if mcsHave &&& rtapMcsHaveMcs ≠ 0 then
        st := { st with mcsIndex := (← index fieldBytes 2) &&& 0x7f }
      if mcsHave &&& rtapMcsHaveBw ≠ 0 then
        if (← index fieldBytes 1) &&& 0x01 ≠ 0 then
          st := { st with bandwidth := 40 }
      return st
  | _ => return st

/-- One round of the loop over the present bits.  The field is the index of the bit in the
whole sequence of present words, cast to 32 bits. -/
def fieldRound (pkt : List UInt8) (presentWords : List UInt32) (fieldIndex : ℕ)
    (st : FieldState) : Checked (Flow FieldState Unit) := do
  let wordIdx := fieldIndex / 32
  let bitIdx := fieldIndex % 32
  let w ← index presentWords wordIdx
  if w &&& ((1 : UInt32) <<< UInt32.ofNat bitIdx) = 0 then return .next st
  if st.antIdx ≥ 4 then return .brk st
  let field := fieldIndex % 2 ^ 32
  match fieldLayout field with
  | none => return .brk st
  | some (align, size) =>
      let curOff ← alignUp st.curOff align
      if (← uadd curOff size) > pkt.length then return .ret ()
      let fieldBytes ← slice pkt curOff (← uadd curOff size)
      let st ← readField field fieldBytes st
      return .next { st with curOff := ← uadd curOff size }

/-- The result built from the state the field loop ends in. -/
def FieldState.toMeta (st : FieldState) (radiotapLen : ℕ) : RadiotapMeta where
  rtFlags := st.rtFlags
  selfInjected := st.selfInjected
  freq := st.freq
  antenna := st.antenna
  rssi := st.rssi
  noise := st.noise
  antCount := UInt8.ofNat st.antIdx
  mcsIndex := st.mcsIndex
  bandwidth := st.bandwidth
  radiotapLen := radiotapLen

def radiotapMetaFromPacket (pkt : List UInt8) : Checked (Option RadiotapMeta) := do
  if pkt.length < 8 then return none
  let version ← index pkt 0
  if version ≠ 0 then return none
  let radiotapLen := (← leU16 (← slice pkt 2 4)).toNat
  if radiotapLen > pkt.length then return none
  match ← loopN (presentRound pkt) pkt.length ⟨[], 4⟩ with
  | .inr () => return none
  | .inl s =>
      let presentWordsCount := s.presentWords.length
      -- `saturating_sub`
      let argsOffset ← uadd 8 (← umul 4 (presentWordsCount - 1))
      if argsOffset > pkt.length then return none
      let maxFieldBit ← umul presentWordsCount 32
      match ← forRange (fieldRound pkt s.presentWords) 0 maxFieldBit { curOff := argsOffset } with
      | .inr () => return none
      | .inl st => return some (st.toMeta radiotapLen)

/-- The packet of the parser's own unit tests: TX_FLAGS and MCS, with the index in the last
byte. -/
example : (radiotapMetaFromPacket
      [0, 0, 0x0d, 0, 0, 0x80, 0x08, 0, 0x08, 0, 0x37, 1, 3]).map
        (·.map fun m => (m.selfInjected, m.mcsIndex, m.bandwidth, m.antCount)) =
    .ok (some (true, 3, 40, 0)) := by decide +kernel

end WfbRs
