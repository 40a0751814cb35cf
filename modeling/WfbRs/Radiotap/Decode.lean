import WfbRs.Radiotap.Parse

/-!
# What the radiotap parser computes

`decode` is the parser without its machine checks: the present words are read off the byte
string by `presentChain`, and `walk` goes through the list of the present fields.  The main
result, `radiotapMetaFromPacket_eq`, says that the parser returns what `decode` returns and
does not fault; `decode_eq_some_iff` says which packets it accepts and what it reads from them.
-/

namespace WfbRs

open Rust

/-! ### The length and the present words -/

/-- The length that the header declares in its bytes 2 and 3. -/
def declaredLen (pkt : List UInt8) : ℕ := Words.ofLE ((pkt.drop 2).take 2)

lemma declaredLen_lt (pkt : List UInt8) : declaredLen pkt < 2 ^ 16 := by
  have h := Words.ofLE_lt ((pkt.drop 2).take 2)
  have hlen : ((pkt.drop 2).take 2).length ≤ 2 := by simp
  exact lt_of_lt_of_le h (le_trans (Nat.pow_le_pow_right (by omega) hlen) (by norm_num))

/-- The word with these four bytes. -/
def leWord (b₀ b₁ b₂ b₃ : UInt8) : UInt32 := UInt32.ofNat (Words.ofLE [b₀, b₁, b₂, b₃])

/-- The present words at the front of a byte string, with their extension bits cleared;
`none` when the string ends before a word without the extension bit. -/
def presentChain : List UInt8 → Option (List UInt32)
  | b₀ :: b₁ :: b₂ :: b₃ :: rest =>
      if leWord b₀ b₁ b₂ b₃ &&& 0x80000000 ≠ 0 then
        (presentChain rest).map ((leWord b₀ b₁ b₂ b₃ &&& 0x7fffffff) :: ·)
      else some [leWord b₀ b₁ b₂ b₃ &&& 0x7fffffff]
  | _ => none

lemma presentChain_eq_none_of_length {l : List UInt8} (h : l.length < 4) :
    presentChain l = none := by
  match l, h with
  | [], _ => rfl
  | [_], _ => rfl
  | [_, _], _ => rfl
  | [_, _, _], _ => rfl

lemma presentChain_length {l : List UInt8} {ws : List UInt32} (h : presentChain l = some ws) :
    0 < ws.length ∧ 4 * ws.length ≤ l.length := by
  induction l using presentChain.induct generalizing ws with
  | case1 b₀ b₁ b₂ b₃ rest hw ih =>
      rw [presentChain, if_pos hw, Option.map_eq_some_iff] at h
      obtain ⟨ws', hws', rfl⟩ := h
      have := (ih hws').2
      simp only [List.length_cons]
      omega
  | case2 b₀ b₁ b₂ b₃ rest hw =>
      rw [presentChain, if_neg hw, Option.some.injEq] at h
      subst h
      simp
  | case3 l hl =>
      rw [presentChain] at h
      · exact absurd h (by simp)
      · exact hl

/-- The chain is not affected by what follows it. -/
lemma presentChain_append {l m : List UInt8} {ws : List UInt32} (h : presentChain l = some ws) :
    presentChain (l ++ m) = some ws := by
  induction l using presentChain.induct generalizing ws with
  | case1 b₀ b₁ b₂ b₃ rest hw ih =>
      rw [presentChain, if_pos hw, Option.map_eq_some_iff] at h
      obtain ⟨ws', hws', rfl⟩ := h
      simp only [List.cons_append]
      rw [presentChain, if_pos hw, ih hws', Option.map_some]
  | case2 b₀ b₁ b₂ b₃ rest hw =>
      rw [presentChain, if_neg hw] at h
      simp only [List.cons_append]
      rw [presentChain, if_neg hw, h]
  | case3 l hl =>
      rw [presentChain] at h
      · exact absurd h (by simp)
      · exact hl

/-- Nothing in the machine overflows on the way to the end of the present words. -/
def PresentFits (pkt : List UInt8) : Prop :=
  match presentChain (pkt.drop 4) with
  | some ws => ws.length < 2 ^ 27
  | none => pkt.length < 2 ^ 63

lemma presentFits_of_length {pkt : List UInt8} (h : pkt.length < 2 ^ 29) : PresentFits pkt := by
  rw [PresentFits]
  split
  · rename_i ws hws
    have := (presentChain_length hws).2
    rw [List.length_drop] at this
    omega
  · omega

/-- The result of the loop over the present words, from a state of that loop. -/
def presentResult (pkt : List UInt8) (s : PresentState) : PresentState ⊕ Unit :=
  match presentChain (pkt.drop s.pOff) with
  | some ws => .inl ⟨s.presentWords ++ ws, s.pOff + 4 * ws.length⟩
  | none => .inr ()

lemma leU32_four (b₀ b₁ b₂ b₃ : UInt8) :
    leU32 [b₀, b₁, b₂, b₃] = .ok (leWord b₀ b₁ b₂ b₃) := rfl

/-- The invariant of the loop over the present words: the offset stays inside the packet, and the
chain from it fits the machine word. -/
structure PresentInv (pkt : List UInt8) (s : PresentState) : Prop where
  off_le : s.pOff ≤ pkt.length
  four_le : 4 ≤ s.pOff
  fits : match presentChain (pkt.drop s.pOff) with
    | some ws => s.pOff + 4 * ws.length < usizeBound
    | none => pkt.length < 2 ^ 63

lemma PresentFits.inv {pkt : List UInt8} (hpkt : 8 ≤ pkt.length) (hfits : PresentFits pkt) :
    PresentInv pkt ⟨[], 4⟩ := by
  refine ⟨by simp only; omega, le_rfl, ?_⟩
  rw [PresentFits] at hfits
  simp only
  cases hc : presentChain (pkt.drop 4) with
  | none => simpa [hc] using hfits
  | some ws =>
      simp only [hc] at hfits
      exact lt_usizeBound (by omega)

lemma PresentInv.add_lt {pkt : List UInt8} {s : PresentState} (h : PresentInv pkt s) :
    s.pOff + 4 < usizeBound := by
  have hoff := h.off_le
  have hfits := h.fits
  cases hc : presentChain (pkt.drop s.pOff) with
  | none =>
      rw [hc] at hfits
      simp only at hfits
      exact lt_usizeBound (by omega)
  | some ws =>
      rw [hc] at hfits
      have hpos := (presentChain_length hc).1
      simp only at hfits
      omega

/-- A round that finds a whole word, and what the word says about the chain. -/
lemma PresentInv.round {pkt : List UInt8} {s : PresentState} (h : PresentInv pkt s)
    (hlen : s.pOff + 4 ≤ pkt.length) :
    ∃ w : UInt32,
      presentRound pkt s = .ok (if w &&& 0x80000000 ≠ 0 then
        .next ⟨s.presentWords ++ [w &&& 0x7fffffff], s.pOff + 4⟩
      else .brk ⟨s.presentWords ++ [w &&& 0x7fffffff], s.pOff + 4⟩) ∧
      presentChain (pkt.drop s.pOff) = if w &&& 0x80000000 ≠ 0 then
        (presentChain (pkt.drop (s.pOff + 4))).map ((w &&& 0x7fffffff) :: ·)
      else some [w &&& 0x7fffffff] := by
  obtain ⟨b₀, b₁, b₂, b₃, rest, hdrop⟩ :
      ∃ b₀ b₁ b₂ b₃ rest, pkt.drop s.pOff = b₀ :: b₁ :: b₂ :: b₃ :: rest := by
    have hlen' : 4 ≤ (pkt.drop s.pOff).length := by
      rw [List.length_drop]
      omega
    match pkt.drop s.pOff, hlen' with
    | b₀ :: b₁ :: b₂ :: b₃ :: rest, _ => exact ⟨b₀, b₁, b₂, b₃, rest, rfl⟩
  have hrest : pkt.drop (s.pOff + 4) = rest := by
    rw [← List.drop_drop, hdrop]
    rfl
  have hslice : slice pkt s.pOff (s.pOff + 4) = .ok [b₀, b₁, b₂, b₃] := by
    rw [slice_ok (by omega) hlen, hdrop]
    simp
  refine ⟨leWord b₀ b₁ b₂ b₃, ?_, by rw [hdrop, presentChain, hrest]⟩
  simp only [presentRound, uadd_ok h.add_lt, ok_bind, if_neg (Nat.not_lt_of_le hlen), hslice,
    leU32_four, pure_eq_ok]
  split <;> rfl

lemma presentLoop_eq {pkt : List UInt8} (hpkt : 8 ≤ pkt.length) (hfits : PresentFits pkt) :
    loopN (presentRound pkt) pkt.length ⟨[], 4⟩ = .ok (presentResult pkt ⟨[], 4⟩) := by
  refine loopN_eq (PresentInv pkt) (fun s => pkt.length - s.pOff) (presentResult pkt) ?_ _ _
    (hfits.inv hpkt) (by simp only; omega)
  intro s hs
  have hoff := hs.off_le
  have hoff4 := hs.four_le
  -- a word that does not fit ends the parser, and the chain has no end there
  by_cases hlong : s.pOff + 4 > pkt.length
  · refine .inr (.inr ⟨(), ?_, ?_⟩)
    · simp only [presentRound, uadd_ok hs.add_lt, ok_bind, if_pos hlong, pure_eq_ok]
    · have hnone : presentChain (pkt.drop s.pOff) = none :=
        presentChain_eq_none_of_length (by rw [List.length_drop]; omega)
      simp only [presentResult, hnone]
  obtain ⟨w, hround, hchain⟩ := hs.round (Nat.le_of_not_lt hlong)
  have hbound := hs.fits
  rw [hchain] at hbound
  rw [hround]
  -- the words read so far and the rest of the chain are the chain from the old offset
  by_cases hw : w &&& 0x80000000 ≠ 0
  · rw [if_pos hw] at hbound hchain ⊢
    refine .inl ⟨_, rfl, ⟨⟨by simp only; omega, by simp only; omega, ?_⟩, by simp only; omega⟩, ?_⟩
    · simp only
      cases hc : presentChain (pkt.drop (s.pOff + 4)) with
      | none => simpa [hc] using hbound
      | some ws =>
          simp only [hc, Option.map_some, List.length_cons] at hbound
          simp only
          omega
    · simp only [presentResult, hchain]
      cases presentChain (pkt.drop (s.pOff + 4)) with
      | none => rfl
      | some ws =>
          simp only [Option.map_some, List.append_assoc, List.cons_append, List.nil_append,
            List.length_cons, Sum.inl.injEq, PresentState.mk.injEq, true_and]
          omega
  · rw [if_neg hw] at hchain ⊢
    refine .inr (.inl ⟨_, rfl, ?_⟩)
    simp only [presentResult, hchain]
    rfl

/-! ### One field -/

lemma fieldLayout_some {f a sz : ℕ} (h : fieldLayout f = some (a, sz)) :
    (∃ k ≤ 3, a = 2 ^ k) ∧ 0 < sz ∧ a + sz ≤ 20 ∧ f < 23 := by
  unfold fieldLayout at h
  split at h
  case h_23 => exact absurd h (by simp)
  all_goals
    obtain ⟨rfl, rfl⟩ : _ ∧ _ := by simpa only [Option.some.injEq, Prod.mk.injEq] using h
    refine ⟨?_, by omega, by omega, by omega⟩
    first
      | exact ⟨0, by omega, rfl⟩
      | exact ⟨1, by omega, rfl⟩
      | exact ⟨2, by omega, rfl⟩
      | exact ⟨3, by omega, rfl⟩

lemma fieldLayout_eq_none {f : ℕ} (h : 23 ≤ f) : fieldLayout f = none := by
  cases hf : fieldLayout f with
  | none => rfl
  | some p =>
      have := (fieldLayout_some hf).2.2.2
      omega

/-- The next multiple of `align` from `v` on. -/
def nextAligned (v align : ℕ) : ℕ := (v + (align - 1)) / align * align

lemma le_nextAligned {v align : ℕ} (h : 0 < align) : v ≤ nextAligned v align := by
  have h₁ := Nat.div_add_mod (v + (align - 1)) align
  have h₂ := Nat.mod_lt (v + (align - 1)) h
  have h₃ := Nat.mul_comm align ((v + (align - 1)) / align)
  rw [nextAligned]
  omega

lemma nextAligned_lt {v align : ℕ} (h : 0 < align) : nextAligned v align < v + align := by
  have h₁ := Nat.div_mul_le_self (v + (align - 1)) align
  rw [nextAligned]
  omega

lemma alignUp_eq {v a sz f : ℕ} (hf : fieldLayout f = some (a, sz)) (hv : v + 20 < usizeBound) :
    alignUp v a = .ok (nextAligned v a) := by
  obtain ⟨⟨k, hk, rfl⟩, -, hle, -⟩ := fieldLayout_some hf
  have hpos : 0 < 2 ^ k := Nat.two_pow_pos k
  by_cases h1 : 2 ^ k ≤ 1
  · have hone : 2 ^ k = 1 := by omega
    rw [hone]
    simp [alignUp, nextAligned]
  · have hadd : v + (2 ^ k - 1) < usizeBound := by omega
    simp only [alignUp, if_neg h1, usub_ok hpos, ok_bind, uadd_ok hadd, pure_eq_ok,
      and_unot_mask hadd (show k ≤ 64 by omega), nextAligned]

/-- What a field of the right size changes, without the checks of `readField`. -/
def applyField (field : ℕ) (b : List UInt8) (st : FieldState) : FieldState :=
  match field with
  | rtapAntenna =>
      { st with antenna := st.antenna.setIfInBounds st.antIdx (b.getD 0 0), antIdx := st.antIdx + 1 }
  | rtapDbmAntsignal => { st with rssi := st.rssi.setIfInBounds st.antIdx (b.getD 0 0).toInt8 }
  | rtapDbmAntnoise => { st with noise := st.noise.setIfInBounds st.antIdx (b.getD 0 0).toInt8 }
  | rtapChannel => { st with freq := UInt16.ofNat (Words.ofLE (b.take 2)) }
  | rtapFlags => { st with rtFlags := b.getD 0 0 }
  | rtapTxFlags => { st with selfInjected := true }
  | rtapMcs =>
      { st with
        mcsIndex := if b.getD 0 0 &&& rtapMcsHaveMcs ≠ 0 then b.getD 2 0 &&& 0x7f else st.mcsIndex
        bandwidth := if b.getD 0 0 &&& rtapMcsHaveBw ≠ 0 ∧ b.getD 1 0 &&& 0x01 ≠ 0 then 40
          else st.bandwidth }
  | _ => st

@[simp] lemma applyField_curOff (f : ℕ) (b : List UInt8) (st : FieldState) :
    (applyField f b st).curOff = st.curOff := by
  unfold applyField
  split <;> rfl

lemma applyField_antIdx (f : ℕ) (b : List UInt8) (st : FieldState) :
    (applyField f b st).antIdx = if f = rtapAntenna then st.antIdx + 1 else st.antIdx := by
  unfold applyField
  split <;> simp_all

/-- The low half of the CHANNEL field is its first little-endian 16-bit word. -/
lemma leU32_and_low (b₀ b₁ b₂ b₃ : UInt8) :
    (leWord b₀ b₁ b₂ b₃ &&& 0xffff).toUInt16 = UInt16.ofNat (Words.ofLE [b₀, b₁]) := by
  have hmask : (0xffff : UInt32).toNat = 2 ^ 16 - 1 := rfl
  have h₀ := b₀.toNat_lt
  have h₁ := b₁.toNat_lt
  have h₂ := b₂.toNat_lt
  have h₃ := b₃.toNat_lt
  apply UInt16.toNat_inj.mp
  rw [UInt32.toNat_toUInt16, UInt32.toNat_and, hmask, Nat.and_two_pow_sub_one_eq_mod, leWord,
    UInt32.toNat_ofNat', UInt16.toNat_ofNat']
  simp only [Words.ofLE_cons, Words.ofLE_nil]
  omega

/-- A field of one byte. -/
lemma eq_singleton_of_fieldLayout {f a sz a' : ℕ} {b : List UInt8}
    (hf : fieldLayout f = some (a, sz)) (hb : b.length = sz) (hone : fieldLayout f = some (a', 1)) :
    ∃ x, b = [x] := by
  rw [hone, Option.some.injEq, Prod.mk.injEq] at hf
  exact List.length_eq_one_iff.mp (hb.trans hf.2.symm)

lemma readField_eq {f a sz : ℕ} {b : List UInt8} {st : FieldState}
    (hf : fieldLayout f = some (a, sz)) (hb : b.length = sz) (hant : st.antIdx < 4) :
    readField f b st = .ok (applyField f b st) := by
  have huadd : uadd st.antIdx 1 = .ok (st.antIdx + 1) := uadd_ok (lt_usizeBound (by omega))
  unfold readField
  split
  · obtain ⟨x, rfl⟩ := eq_singleton_of_fieldLayout hf hb rfl
    simp [applyField, hant, huadd, setArray_ok, index]
  · obtain ⟨x, rfl⟩ := eq_singleton_of_fieldLayout hf hb rfl
    simp [applyField, hant, setArray_ok, index]
  · obtain ⟨x, rfl⟩ := eq_singleton_of_fieldLayout hf hb rfl
    simp [applyField, hant, setArray_ok, index]
  · simp only [fieldLayout, Option.some.injEq, Prod.mk.injEq] at hf
    match b, hb.trans hf.2.symm with
    | [b₀, b₁, b₂, b₃], _ =>
        simp only [leU32_four, ok_bind, pure_eq_ok, applyField, leU32_and_low, List.take_succ_cons,
          List.take_zero]
  · obtain ⟨x, rfl⟩ := eq_singleton_of_fieldLayout hf hb rfl
    simp [applyField, index]
  · simp [applyField]
  · simp only [fieldLayout, Option.some.injEq, Prod.mk.injEq] at hf
    match b, hb.trans hf.2.symm with
    | [b₀, b₁, b₂], _ =>
        by_cases h₁ : b₀ &&& rtapMcsHaveMcs = 0 <;> by_cases h₂ : b₀ &&& rtapMcsHaveBw = 0 <;>
          by_cases h₃ : b₁ &&& 0x01 = 0 <;> simp [applyField, index, h₁, h₂, h₃]
  · unfold applyField
    split <;> simp_all

/-! ### The fields in order -/

/-- The bits of the present words, numbered through, in increasing order. -/
def isPresent (ws : List UInt32) (i : ℕ) : Bool := (ws.getD (i / 32) 0).toNat.testBit (i % 32)

/-- The present bits below the given number of words. -/
def presentFields (ws : List UInt32) : List ℕ := (List.range (32 * ws.length)).filter (isPresent ws)

/-- Go through the present fields: stop at the fifth antenna slot and at an unknown field, fail
at a field that does not fit the packet. -/
def walk (pkt : List UInt8) : List ℕ → FieldState → Option FieldState
  | [], st => some st
  | f :: fs, st =>
      if st.antIdx ≥ 4 then some st
      else match fieldLayout f with
        | none => some st
        | some (align, size) =>
            let off := nextAligned st.curOff align
            if off + size > pkt.length then none
            else walk pkt fs
              { applyField f ((pkt.drop off).take size) st with curOff := off + size }

/-- The parser without its machine checks. -/
def decode (pkt : List UInt8) : Option RadiotapMeta :=
  if pkt.length < 8 ∨ pkt.head? ≠ some 0 ∨ declaredLen pkt > pkt.length then none
  else (presentChain (pkt.drop 4)).bind fun ws =>
    (walk pkt (presentFields ws) { curOff := 4 + 4 * ws.length }).map
      (·.toMeta (declaredLen pkt))

/-- The result of the loop over the present bits from bit `i` on, `n` bits long. -/
def fieldResult (pkt : List UInt8) (ws : List UInt32) (i n : ℕ) (st : FieldState) :
    FieldState ⊕ Unit :=
  match walk pkt ((List.range' i n).filter (isPresent ws)) st with
  | some st' => .inl st'
  | none => .inr ()

/-- What a round of the field loop does with a present field. -/
def fieldStep (pkt : List UInt8) (f : ℕ) (st : FieldState) : Flow FieldState Unit :=
  if st.antIdx ≥ 4 then .brk st
  else match fieldLayout f with
    | none => .brk st
    | some (align, size) =>
        let off := nextAligned st.curOff align
        if off + size > pkt.length then .ret ()
        else .next { applyField f ((pkt.drop off).take size) st with curOff := off + size }

lemma walk_cons (pkt : List UInt8) (f : ℕ) (fs : List ℕ) (st : FieldState) :
    walk pkt (f :: fs) st = match fieldStep pkt f st with
      | .next st' => walk pkt fs st'
      | .brk st' => some st'
      | .ret () => none := by
  rw [walk, fieldStep]
  by_cases hant : st.antIdx ≥ 4
  · rw [if_pos hant, if_pos hant]
  · rw [if_neg hant, if_neg hant]
    cases fieldLayout f with
    | none => rfl
    | some p =>
        simp only
        by_cases hlong : nextAligned st.curOff p.1 + p.2 > pkt.length
        · rw [if_pos hlong, if_pos hlong]
        · rw [if_neg hlong, if_neg hlong]

/-- Only the bits of the first word can be known fields, and each moves the offset by less than
20. -/
lemma fieldStep_next {pkt : List UInt8} {f : ℕ} {st st' : FieldState}
    (h : fieldStep pkt f st = .next st') : f < 23 ∧ st'.curOff < st.curOff + 20 := by
  rw [fieldStep] at h
  by_cases hant : st.antIdx ≥ 4
  · simp [hant] at h
  rw [if_neg hant] at h
  cases hlay : fieldLayout f with
  | none => simp [hlay] at h
  | some p =>
      obtain ⟨a, sz⟩ := p
      obtain ⟨⟨k, -, rfl⟩, -, hasz, hf⟩ := fieldLayout_some hlay
      have hlt := nextAligned_lt (v := st.curOff) (Nat.two_pow_pos k)
      simp only [hlay] at h
      split at h
      · cases h
      · cases h
        refine ⟨hf, ?_⟩
        simp only
        omega

/-- A round of the field loop does not fault. -/
lemma fieldRound_eq {pkt : List UInt8} {ws : List UInt32} {i : ℕ} {st : FieldState}
    (hword : i / 32 < ws.length) (hsmall : i < 2 ^ 32)
    (hcur : i < 23 → st.curOff + 20 < usizeBound) :
    fieldRound pkt ws i st = .ok (if isPresent ws i then fieldStep pkt i st else .next st) := by
  have hfield : i % 2 ^ 32 = i := Nat.mod_eq_of_lt hsmall
  have hget : ws.getD (i / 32) 0 = ws[i / 32] := List.getD_eq_getElem _ _ hword
  have htest : (ws[i / 32] &&& ((1 : UInt32) <<< UInt32.ofNat (i % 32)) = 0) ↔
      ¬ isPresent ws i = true := by
    rw [isPresent, hget, ← Words.and_one_shiftLeft_ne_zero _ (Nat.mod_lt _ (by omega)), not_not]
  by_cases hp : isPresent ws i = true
  · have hne : ¬ (ws[i / 32] &&& ((1 : UInt32) <<< UInt32.ofNat (i % 32)) = 0) := by
      rw [htest]
      exact not_not_intro hp
    rw [if_pos hp, fieldStep]
    by_cases hant : st.antIdx ≥ 4
    · simp only [fieldRound, index_ok hword, ok_bind, if_neg hne, if_pos hant, pure_eq_ok]
    -- the source casts the index to 32 bits before it looks the field up
    cases hlay : fieldLayout i with
    | none =>
        simp only [fieldRound, index_ok hword, ok_bind, if_neg hne, if_neg hant, hfield, hlay,
          pure_eq_ok]
    | some p =>
        obtain ⟨a, sz⟩ := p
        obtain ⟨⟨k, -, rfl⟩, hsz, hasz, hi23⟩ := fieldLayout_some hlay
        have hlt := nextAligned_lt (v := st.curOff) (Nat.two_pow_pos k)
        have hbound := hcur hi23
        have halign := alignUp_eq hlay (v := st.curOff) hbound
        have hadd : nextAligned st.curOff (2 ^ k) + sz < usizeBound := by omega
        by_cases hlong : nextAligned st.curOff (2 ^ k) + sz > pkt.length
        · simp only [fieldRound, index_ok hword, ok_bind, if_neg hne, if_neg hant, hfield, hlay,
            halign, uadd_ok hadd, if_pos hlong, pure_eq_ok]
        · have hlen : ((pkt.drop (nextAligned st.curOff (2 ^ k))).take sz).length = sz := by
            rw [List.length_take, List.length_drop]
            omega
          have hread := readField_eq hlay hlen (Nat.lt_of_not_le hant)
          simp only [fieldRound, index_ok hword, ok_bind, if_neg hne, if_neg hant, hfield,
            hlay, halign, uadd_ok hadd, if_neg hlong, pure_eq_ok,
            slice_ok (Nat.le_add_right _ _) (Nat.le_of_not_lt hlong), Nat.add_sub_cancel_left,
            hread]
  · rw [if_neg hp]
    simp only [fieldRound, index_ok hword, ok_bind, if_pos (htest.mpr hp), pure_eq_ok]

lemma fieldLoop_eq (pkt : List UInt8) {ws : List UInt32} (hws : ws.length < 2 ^ 27)
    (st : FieldState) (hoff : st.curOff < 2 ^ 32) :
    forRange (fieldRound pkt ws) 0 (ws.length * 32) st =
      .ok (fieldResult pkt ws 0 (ws.length * 32) st) := by
  -- the offset has room for the fields that the first word can still announce
  let I : ℕ → ℕ → FieldState → Prop := fun i n st =>
    i + n = ws.length * 32 ∧ st.curOff + 20 * (32 - i) + 20 < usizeBound
  refine forRange_eq I (fieldResult pkt ws) ?_ ?_ _ _ _ ⟨by omega, lt_usizeBound (by omega)⟩
  · intro i s _
    simp [fieldResult, walk]
  · rintro i n st ⟨hin, hcur⟩
    have hround : fieldRound pkt ws i st = _ :=
      fieldRound_eq (by omega) (by omega) fun _ => by omega
    rw [hround]
    unfold fieldResult
    rw [List.range'_succ, List.filter_cons]
    by_cases hp : isPresent ws i = true
    · rw [if_pos hp, if_pos hp, walk_cons]
      cases hstep : fieldStep pkt i st with
      | next st' =>
          obtain ⟨hi23, hlt⟩ := fieldStep_next hstep
          exact .inl ⟨st', rfl, ⟨by omega, by omega⟩, rfl⟩
      | brk st' => exact .inr (.inl ⟨st', rfl, rfl⟩)
      | ret r => exact .inr (.inr ⟨r, rfl, rfl⟩)
    · rw [if_neg hp, if_neg hp]
      exact .inl ⟨st, rfl, ⟨by omega, by omega⟩, rfl⟩

/-- The two bytes of the length are read without a fault. -/
lemma readLen_eq {pkt : List UInt8} (hlen : 8 ≤ pkt.length) :
    ∃ b w, slice pkt 2 4 = .ok b ∧ leU16 b = .ok w ∧ w.toNat = declaredLen pkt := by
  match pkt, hlen with
  | v :: p :: l₀ :: l₁ :: rest, _ =>
      have hlt := declaredLen_lt (v :: p :: l₀ :: l₁ :: rest)
      refine ⟨[l₀, l₁], UInt16.ofNat (Words.ofLE [l₀, l₁]), ?_, rfl, ?_⟩
      · rw [slice_ok (by omega) (by simp only [List.length_cons]; omega)]
        rfl
      · rw [UInt16.toNat_ofNat']
        exact Nat.mod_eq_of_lt hlt

/-- The parser reports the declared length, which lies inside the packet. -/
lemma radiotapLen_eq {pkt : List UInt8} {m : RadiotapMeta}
    (h : radiotapMetaFromPacket pkt = .ok (some m)) :
    m.radiotapLen = declaredLen pkt ∧ m.radiotapLen ≤ pkt.length ∧ 8 ≤ pkt.length := by
  unfold radiotapMetaFromPacket at h
  by_cases h8 : pkt.length < 8
  · simp [h8] at h
  have hlen : 8 ≤ pkt.length := Nat.le_of_not_lt h8
  obtain ⟨b, w, hslice, hleU16, hwlen⟩ := readLen_eq hlen
  rw [if_neg h8] at h
  obtain ⟨v, -, h⟩ := bind_eq_ok.mp h
  by_cases hv : v ≠ 0
  · simp [hv] at h
  simp only [if_neg hv, hslice, hleU16, hwlen, ok_bind] at h
  by_cases hd : declaredLen pkt > pkt.length
  · simp [hd] at h
  rw [if_neg hd] at h
  obtain ⟨r, -, h⟩ := bind_eq_ok.mp h
  cases r with
  | inr u => simp at h
  | inl s =>
      obtain ⟨a, -, h⟩ := bind_eq_ok.mp h
      obtain ⟨args, -, h⟩ := bind_eq_ok.mp h
      by_cases hargs : args > pkt.length
      · simp [hargs] at h
      rw [if_neg hargs] at h
      obtain ⟨n, -, h⟩ := bind_eq_ok.mp h
      obtain ⟨r, -, h⟩ := bind_eq_ok.mp h
      cases r with
      | inr u => simp at h
      | inl st =>
          have hm : m = st.toMeta (declaredLen pkt) := by simpa using h.symm
          subst hm
          exact ⟨rfl, Nat.le_of_not_lt hd, hlen⟩

/-- **The parser computes `decode`**, without a fault. -/
theorem radiotapMetaFromPacket_eq {pkt : List UInt8} (hfits : PresentFits pkt) :
    radiotapMetaFromPacket pkt = .ok (decode pkt) := by
  unfold radiotapMetaFromPacket decode
  by_cases h8 : pkt.length < 8
  · simp [h8]
  have hlen : 8 ≤ pkt.length := Nat.le_of_not_lt h8
  have hpresent := presentLoop_eq hlen hfits
  obtain ⟨v, hhead, hindex⟩ : ∃ v, pkt.head? = some v ∧ index pkt 0 = .ok v := by
    match pkt, hlen with
    | v :: _, _ => exact ⟨v, rfl, rfl⟩
  obtain ⟨b, w, hslice, hleU16, hwlen⟩ := readLen_eq hlen
  simp only [hindex, hhead, ok_bind, hslice, hleU16, hwlen, hpresent, h8, false_or]
  by_cases hv : v ≠ 0
  · simp [hv]
  by_cases hd : declaredLen pkt > pkt.length
  · simp [hv, hd]
  have hv0 : v = 0 := not_ne_iff.mp hv
  rw [PresentFits] at hfits
  rw [presentResult]
  cases hc : presentChain (pkt.drop 4) with
  | none => simp [hv0, hd]
  | some ws =>
      simp only [hc] at hfits
      obtain ⟨hpos, hle⟩ := presentChain_length hc
      rw [List.length_drop] at hle
      have hargs : 8 + 4 * (ws.length - 1) = 4 + 4 * ws.length := by omega
      have hmul : 4 * (ws.length - 1) < usizeBound := lt_usizeBound (by omega)
      have hadd : 8 + 4 * (ws.length - 1) < usizeBound := lt_usizeBound (by omega)
      have hbits : ws.length * 32 < usizeBound := lt_usizeBound (by omega)
      have hins : ¬ 4 + 4 * ws.length > pkt.length := by omega
      have hloop := fieldLoop_eq pkt hfits { curOff := 4 + 4 * ws.length }
        (by simp only; omega)
      simp only [hv0, hd, ne_eq, not_true_eq_false, if_false, List.nil_append, umul_ok hmul,
        ok_bind, uadd_ok hadd, hargs, hins, umul_ok hbits, hloop, Option.bind_some, or_self]
      rw [fieldResult, presentFields, ← List.range_eq_range', Nat.mul_comm ws.length 32]
      cases walk pkt ((List.range (32 * ws.length)).filter (isPresent ws))
          { curOff := 4 + 4 * ws.length } with
      | none => rfl
      | some st => rfl

/-! ### The fields that are read -/

/-- A field together with its bytes. -/
structure Arg where
  field : ℕ
  bytes : List UInt8
deriving DecidableEq, Repr

/-- The state after reading a list of fields. -/
def readArgs (st : FieldState) (as : List Arg) : FieldState :=
  as.foldl (fun st a => applyField a.field a.bytes st) st

/-- Where the next field starts. -/
def fieldStart (off f : ℕ) : ℕ :=
  match fieldLayout f with
  | some (align, _) => nextAligned off align
  | none => off

/-- The size of a field. -/
def fieldSize (f : ℕ) : ℕ :=
  match fieldLayout f with
  | some (_, size) => size
  | none => 0

/-- Where a list of fields ends that is laid out from `off` on. -/
def argsEnd (off : ℕ) (fs : List ℕ) : ℕ := fs.foldl (fun off f => fieldStart off f + fieldSize f) off

/-- The fields of a list with the bytes that the packet holds for them. -/
def fieldArgs (pkt : List UInt8) : ℕ → List ℕ → List Arg
  | _, [] => []
  | off, f :: fs =>
      ⟨f, (pkt.drop (fieldStart off f)).take (fieldSize f)⟩ ::
        fieldArgs pkt (fieldStart off f + fieldSize f) fs

/-- The present fields up to the first one that is not known. -/
def knownFields (ws : List UInt32) : List ℕ :=
  (presentFields ws).takeWhile fun f => (fieldLayout f).isSome

lemma le_fieldStart (off f : ℕ) : off ≤ fieldStart off f := by
  unfold fieldStart
  split
  · rename_i a sz hlay
    obtain ⟨⟨k, -, rfl⟩, -⟩ := fieldLayout_some hlay
    exact le_nextAligned (Nat.two_pow_pos k)
  · exact le_rfl

lemma fieldStart_add_fieldSize_le (off f : ℕ) : fieldStart off f + fieldSize f ≤ off + 20 := by
  unfold fieldStart fieldSize
  split
  · rename_i a sz hlay
    obtain ⟨⟨k, -, rfl⟩, -, hle, -⟩ := fieldLayout_some hlay
    have := nextAligned_lt (v := off) (Nat.two_pow_pos k)
    omega
  · omega

@[simp] lemma argsEnd_nil (off : ℕ) : argsEnd off [] = off := rfl

@[simp] lemma argsEnd_cons (off f : ℕ) (fs : List ℕ) :
    argsEnd off (f :: fs) = argsEnd (fieldStart off f + fieldSize f) fs := rfl

lemma le_argsEnd (off : ℕ) (fs : List ℕ) : off ≤ argsEnd off fs := by
  induction fs generalizing off with
  | nil => exact le_rfl
  | cons f fs ih =>
      have h₁ := ih (fieldStart off f + fieldSize f)
      have h₂ := le_fieldStart off f
      rw [argsEnd_cons]
      omega

lemma argsEnd_le (off : ℕ) (fs : List ℕ) : argsEnd off fs ≤ off + 20 * fs.length := by
  induction fs generalizing off with
  | nil => simp
  | cons f fs ih =>
      have h₁ := ih (fieldStart off f + fieldSize f)
      have h₂ := fieldStart_add_fieldSize_le off f
      rw [argsEnd_cons, List.length_cons]
      omega

lemma applyField_withCurOff (f : ℕ) (b : List UInt8) (st : FieldState) (off : ℕ) :
    applyField f b { st with curOff := off } = { applyField f b st with curOff := off } := by
  unfold applyField
  split <;> rfl

lemma readArgs_withCurOff (st : FieldState) (as : List Arg) (off : ℕ) :
    readArgs { st with curOff := off } as = { readArgs st as with curOff := off } := by
  induction as generalizing st with
  | nil => rfl
  | cons a as ih =>
      simp only [readArgs, List.foldl_cons, applyField_withCurOff] at ih ⊢
      exact ih _

lemma walk_takeWhile (pkt : List UInt8) (fs : List ℕ) (st : FieldState) :
    walk pkt fs st = walk pkt (fs.takeWhile fun f => (fieldLayout f).isSome) st := by
  induction fs generalizing st with
  | nil => rfl
  | cons f fs ih =>
      rw [List.takeWhile_cons]
      cases hlay : fieldLayout f with
      | none => simp [walk, hlay]
      | some p =>
          simp only [Option.isSome_some, if_true, walk, hlay]
          rw [ih]

/-- Known fields are all read if they fit the packet and do not fill the antenna slots. -/
lemma walk_known {pkt : List UInt8} {fs : List ℕ} {st : FieldState}
    (hfs : ∀ f ∈ fs, (fieldLayout f).isSome) (hant : st.antIdx + fs.count rtapAntenna < 4)
    (hoff : st.curOff ≤ pkt.length) :
    walk pkt fs st =
      if argsEnd st.curOff fs ≤ pkt.length then
        some { readArgs st (fieldArgs pkt st.curOff fs) with curOff := argsEnd st.curOff fs }
      else none := by
  induction fs generalizing st with
  | nil => simp [walk, hoff, readArgs, fieldArgs]
  | cons f fs ih =>
      obtain ⟨⟨a, sz⟩, hlay⟩ := Option.isSome_iff_exists.mp (hfs f (by simp))
      have hstart : fieldStart st.curOff f = nextAligned st.curOff a := by simp [fieldStart, hlay]
      have hsize : fieldSize f = sz := by simp [fieldSize, hlay]
      have hlt : ¬ st.antIdx ≥ 4 := by omega
      rw [walk, if_neg hlt, hlay, argsEnd_cons, hstart, hsize]
      simp only
      by_cases hlong : nextAligned st.curOff a + sz > pkt.length
      · have hle := le_argsEnd (nextAligned st.curOff a + sz) fs
        rw [if_pos hlong, if_neg (by omega)]
      · rw [if_neg hlong, ih]
        · simp only [fieldArgs, hstart, hsize, readArgs, List.foldl_cons]
          congr 2
          have h := readArgs_withCurOff (applyField f ((pkt.drop (nextAligned st.curOff a)).take sz) st)
            (fieldArgs pkt (nextAligned st.curOff a + sz) fs) (nextAligned st.curOff a + sz)
          simp only [readArgs] at h
          rw [h]
        · exact fun g hg => hfs g (by simp [hg])
        · simp only [applyField_antIdx]
          rw [List.count_cons] at hant
          by_cases hf : f = rtapAntenna
          · simp only [hf, if_true, beq_self_eq_true] at hant ⊢
            omega
          · simp only [hf, if_false]
            omega
        · simp only
          omega

lemma pairwise_knownFields (ws : List UInt32) : (knownFields ws).Pairwise (· < ·) :=
  ((List.pairwise_lt_range).sublist List.filter_sublist).sublist
    (List.takeWhile_sublist _)

lemma isSome_of_mem_knownFields {ws : List UInt32} {f : ℕ} (h : f ∈ knownFields ws) :
    (fieldLayout f).isSome := by
  simpa using List.mem_takeWhile_imp h

lemma count_knownFields_le (ws : List UInt32) (f : ℕ) : (knownFields ws).count f ≤ 1 :=
  List.nodup_iff_count_le_one.mp
    ((pairwise_knownFields ws).imp fun hab => Nat.ne_of_lt hab) f

lemma length_knownFields_le (ws : List UInt32) : (knownFields ws).length ≤ 23 := by
  have hsub : knownFields ws ⊆ List.range 23 := by
    intro f hf
    obtain ⟨p, hp⟩ := Option.isSome_iff_exists.mp (isSome_of_mem_knownFields hf)
    exact List.mem_range.mpr (fieldLayout_some hp).2.2.2
  have hnodup : (knownFields ws).Nodup :=
    (pairwise_knownFields ws).imp fun hab => Nat.ne_of_lt hab
  simpa using (hnodup.subperm hsub).length_le

/-- The metadata read from a packet with these present words. -/
def metaOf (pkt : List UInt8) (ws : List UInt32) : RadiotapMeta :=
  (readArgs { curOff := 4 + 4 * ws.length }
    (fieldArgs pkt (4 + 4 * ws.length) (knownFields ws))).toMeta (declaredLen pkt)

/-- The first 8 bytes pass the checks that come before the present words. -/
def StartsWell (pkt : List UInt8) : Prop :=
  8 ≤ pkt.length ∧ pkt.head? = some 0 ∧ declaredLen pkt ≤ pkt.length

/-- **What the parser accepts and what it returns**: the packet starts well, its present words
end inside it, and so do the arguments of the known fields. -/
theorem decode_eq_some_iff {pkt : List UInt8} {m : RadiotapMeta} :
    decode pkt = some m ↔ StartsWell pkt ∧ ∃ ws, presentChain (pkt.drop 4) = some ws ∧
      argsEnd (4 + 4 * ws.length) (knownFields ws) ≤ pkt.length ∧ m = metaOf pkt ws := by
  unfold decode
  by_cases hs : pkt.length < 8 ∨ pkt.head? ≠ some 0 ∨ declaredLen pkt > pkt.length
  · rw [if_pos hs]
    refine ⟨fun h => absurd h (by simp), ?_⟩
    rintro ⟨⟨h₁, h₂, h₃⟩, -⟩
    rcases hs with h | h | h
    · omega
    · exact absurd h₂ h
    · omega
  · rw [if_neg hs]
    simp only [not_or, not_lt, not_ne_iff] at hs
    have hwell : StartsWell pkt := hs
    simp only [hwell, true_and, Option.bind_eq_some_iff]
    refine exists_congr fun ws => and_congr_right fun hc => ?_
    have hle := (presentChain_length hc).2
    have hlen := hs.1
    rw [List.length_drop] at hle
    rw [walk_takeWhile, ← knownFields, walk_known (fun f hf => isSome_of_mem_knownFields hf)
      (by have := count_knownFields_le ws rtapAntenna; simp only; omega) (by simp only; omega)]
    by_cases hend : argsEnd (4 + 4 * ws.length) (knownFields ws) ≤ pkt.length
    · simp only [hend, if_true, Option.map_some, Option.some.injEq, true_and, metaOf]
      exact eq_comm
    · simp [hend]

end WfbRs
