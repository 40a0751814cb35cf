import WfbRs.Lib.Rust

/-!
# Bytes and bits of machine words

Natural numbers as byte strings in either byte order, and the single bits of a 32-bit
word.  A word is built from the set of its bits by `ofBits`; everything about masks is
stated with `Nat.testBit`.
-/

namespace Words

/-! ### Byte strings -/

/-- The number with these bytes, least significant byte first. -/
def ofLE (l : List UInt8) : ℕ := l.foldr (fun b n => b.toNat + 256 * n) 0

/-- The `k` low bytes of a number, least significant byte first. -/
def toLE (k n : ℕ) : List UInt8 := (List.range k).map fun i => UInt8.ofNat (n / 256 ^ i)

/-- The number with these bytes, most significant byte first. -/
def ofBE (l : List UInt8) : ℕ := ofLE l.reverse

/-- The `k` low bytes of a number, most significant byte first. -/
def toBE (k n : ℕ) : List UInt8 := (toLE k n).reverse

@[simp] lemma ofLE_nil : ofLE [] = 0 := rfl

@[simp] lemma ofLE_cons (b : UInt8) (l : List UInt8) : ofLE (b :: l) = b.toNat + 256 * ofLE l := rfl

@[simp] lemma length_toLE (k n : ℕ) : (toLE k n).length = k := by simp [toLE]

@[simp] lemma length_toBE (k n : ℕ) : (toBE k n).length = k := by simp [toBE]

lemma toLE_succ (k n : ℕ) : toLE (k + 1) n = UInt8.ofNat n :: toLE k (n / 256) := by
  simp only [toLE, List.range_succ_eq_map, List.map_cons, List.map_map, pow_zero, Nat.div_one]
  congr 1
  apply List.map_congr_left
  intro i _
  simp only [Function.comp_apply, Nat.succ_eq_add_one, Nat.div_div_eq_div_mul, pow_succ']

lemma ofLE_lt (l : List UInt8) : ofLE l < 256 ^ l.length := by
  induction l with
  | nil => simp
  | cons b l ih =>
      have hb := b.toNat_lt
      rw [ofLE_cons, List.length_cons, pow_succ']
      omega

lemma ofLE_toLE {k n : ℕ} (h : n < 256 ^ k) : ofLE (toLE k n) = n := by
  induction k generalizing n with
  | zero =>
      have hn : n = 0 := by simpa using h
      simp [toLE, hn]
  | succ k ih =>
      rw [pow_succ'] at h
      rw [toLE_succ, ofLE_cons, ih (by omega), UInt8.toNat_ofNat']
      omega

lemma toLE_ofLE (l : List UInt8) : toLE l.length (ofLE l) = l := by
  induction l with
  | nil => rfl
  | cons b l ih =>
      have hb := b.toNat_lt
      have hdiv : (b.toNat + 256 * ofLE l) / 256 = ofLE l := by omega
      rw [List.length_cons, toLE_succ, ofLE_cons, hdiv, ih]
      congr 1
      apply UInt8.toNat_inj.mp
      rw [UInt8.toNat_ofNat']
      omega

lemma ofBE_lt (l : List UInt8) : ofBE l < 256 ^ l.length := by
  simpa [ofBE] using ofLE_lt l.reverse

lemma ofBE_toBE {k n : ℕ} (h : n < 256 ^ k) : ofBE (toBE k n) = n := by
  rw [ofBE, toBE, List.reverse_reverse, ofLE_toLE h]

lemma toBE_ofBE (l : List UInt8) : toBE l.length (ofBE l) = l := by
  have h := toLE_ofLE l.reverse
  rw [List.length_reverse] at h
  rw [toBE, ofBE, h, List.reverse_reverse]

/-- Four bytes fit a 32-bit word. -/
lemma toNat_ofBE_four {l : List UInt8} (h : l.length = 4) :
    (UInt32.ofNat (ofBE l)).toNat = ofBE l := by
  have hlt := ofBE_lt l
  rw [h] at hlt
  rw [UInt32.toNat_ofNat']
  exact Nat.mod_eq_of_lt hlt

/-- Two bytes fit a 16-bit word. -/
lemma toNat_ofBE_two {l : List UInt8} (h : l.length = 2) :
    (UInt16.ofNat (ofBE l)).toNat = ofBE l := by
  have hlt := ofBE_lt l
  rw [h] at hlt
  rw [UInt16.toNat_ofNat']
  exact Nat.mod_eq_of_lt hlt

/-! ### Bits -/

/-- The 32-bit word whose set bits are the ones `p` holds of. -/
def ofBits (p : ℕ → Bool) : UInt32 := UInt32.ofBitVec (BitVec.ofFnLE fun i : Fin 32 => p i)

lemma testBit_ofBits (p : ℕ → Bool) {i : ℕ} (hi : i < 32) : (ofBits p).toNat.testBit i = p i := by
  have h : (ofBits p).toNat.testBit i = (BitVec.ofFnLE fun j : Fin 32 => p j).getLsbD i := rfl
  rw [h, BitVec.getLsbD_ofFnLE, dif_pos hi]

/-- A word masked with one bit is not zero exactly when the bit is set. -/
lemma and_one_shiftLeft_ne_zero (w : UInt32) {i : ℕ} (hi : i < 32) :
    w &&& ((1 : UInt32) <<< UInt32.ofNat i) ≠ 0 ↔ w.toNat.testBit i = true := by
  have hbit : ((1 : UInt32) <<< UInt32.ofNat i).toNat = 2 ^ i := by
    have hlt : 2 ^ i < 2 ^ 32 := Nat.pow_lt_pow_right (by omega) hi
    have hi' : i < 2 ^ 32 := by omega
    simp only [UInt32.toNat_shiftLeft, UInt32.toNat_ofNat', Nat.mod_eq_of_lt hi',
      Nat.mod_eq_of_lt hi, UInt32.toNat_one, Nat.shiftLeft_eq, one_mul, Nat.mod_eq_of_lt hlt]
  rw [Ne, ← UInt32.toNat_inj, UInt32.toNat_and, hbit, Nat.and_two_pow]
  cases w.toNat.testBit i <;> simp

/-- Clearing bit 31. -/
lemma testBit_and_low (w : UInt32) (i : ℕ) :
    (w &&& 0x7fffffff).toNat.testBit i = (decide (i < 31) && w.toNat.testBit i) := by
  have hmask : (0x7fffffff : UInt32).toNat = 2 ^ 31 - 1 := rfl
  rw [UInt32.toNat_and, Nat.testBit_and, hmask, Nat.testBit_two_pow_sub_one, Bool.and_comm]

/-- Testing bit 31. -/
lemma and_high_ne_zero (w : UInt32) : w &&& 0x80000000 ≠ 0 ↔ w.toNat.testBit 31 = true :=
  and_one_shiftLeft_ne_zero w (i := 31) (by omega)

/-- The bytes of a word give back its number. -/
lemma ofLE_four (w : UInt32) : ofLE (toLE 4 w.toNat) = w.toNat :=
  ofLE_toLE (by have h := w.toNat_lt; norm_num; omega)

end Words
