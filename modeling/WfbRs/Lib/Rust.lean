import Mathlib

/-!
# Checked machine code

A shallow embedding of safe systems code whose only way to go wrong is to panic.  A
computation is an `Except Fault`: it returns a value or names the check that failed.
Machine integers of type `usize` are natural numbers, and every operation on them that
the machine checks (overflow, underflow, division by zero) is checked here; so are
indexing, slicing and the copy between slices of equal length.

Loops come in two forms.  `forRange` runs its body over `i, i + 1, …` and `loopN` repeats
its body until it leaves the loop; the second one is given a number of rounds, and a loop
that has not ended by then is a `Fault.fuel`.  A proof that a program has no fault is
therefore also a proof that its loops terminate.
-/

namespace Rust

/-- The checks that can stop a program. -/
inductive Fault
  /-- An index is not below the length. -/
  | index
  /-- A range does not lie inside the slice. -/
  | slice
  /-- Source and destination of a copy have different lengths. -/
  | copyLength
  /-- An addition or multiplication leaves the machine word. -/
  | overflow
  /-- A subtraction goes below zero. -/
  | underflow
  /-- Division or remainder by zero. -/
  | divByZero
  /-- A loop did not end within the rounds it was given. -/
  | fuel
deriving DecidableEq, Repr

/-- A computation that may fault. -/
abbrev Checked (α : Type) : Type := Except Fault α

variable {α β σ ρ : Type}

@[simp] lemma ok_bind (a : α) (f : α → Checked β) : (Except.ok a : Checked α) >>= f = f a := rfl

@[simp] lemma error_bind (e : Fault) (f : α → Checked β) :
    (Except.error e : Checked α) >>= f = Except.error e := rfl

@[simp] lemma pure_eq_ok (a : α) : (pure a : Checked α) = Except.ok a := rfl

/-- A sequence that ends well has a first part that ends well. -/
lemma bind_eq_ok {x : Checked α} {f : α → Checked β} {b : β} :
    x >>= f = .ok b ↔ ∃ a, x = .ok a ∧ f a = .ok b := by
  cases x with
  | error e => simp
  | ok a => simp

/-! ### Arithmetic on `usize` -/

/-- One more than the largest `usize` of a 64-bit machine. -/
def usizeBound : ℕ := 2 ^ 64

/-- `a + b`. -/
def uadd (a b : ℕ) : Checked ℕ := if a + b < usizeBound then .ok (a + b) else .error .overflow

/-- `a - b`. -/
def usub (a b : ℕ) : Checked ℕ := if b ≤ a then .ok (a - b) else .error .underflow

/-- `a * b`. -/
def umul (a b : ℕ) : Checked ℕ := if a * b < usizeBound then .ok (a * b) else .error .overflow

/-- `a % b`. -/
def urem (a b : ℕ) : Checked ℕ := if b = 0 then .error .divByZero else .ok (a % b)

/-- `!a`. -/
def unot (a : ℕ) : ℕ := usizeBound - 1 - a

lemma lt_usizeBound {n : ℕ} (h : n < 2 ^ 64) : n < usizeBound := h

lemma uadd_ok {a b : ℕ} (h : a + b < usizeBound) : uadd a b = .ok (a + b) := if_pos h

lemma uadd_eq_ok {a b n : ℕ} (h : uadd a b = .ok n) : n = a + b := by
  rw [uadd] at h
  split at h
  · exact (Except.ok.inj h).symm
  · cases h

lemma usub_ok {a b : ℕ} (h : b ≤ a) : usub a b = .ok (a - b) := if_pos h

lemma umul_ok {a b : ℕ} (h : a * b < usizeBound) : umul a b = .ok (a * b) := if_pos h

lemma urem_ok {a b : ℕ} (h : 0 < b) : urem a b = .ok (a % b) := if_neg (by omega)

/-- Masking with `!(2 ^ k - 1)` rounds down to a multiple of `2 ^ k`. -/
lemma and_unot_mask {x k : ℕ} (hx : x < usizeBound) (hk : k ≤ 64) :
    x &&& unot (2 ^ k - 1) = x / 2 ^ k * 2 ^ k := by
  have hpow : 2 ^ k ≤ 2 ^ 64 := Nat.pow_le_pow_right (by omega) hk
  have hpos : 0 < 2 ^ k := Nat.two_pow_pos k
  have hmask : unot (2 ^ k - 1) = 2 ^ 64 - ((2 ^ k - 1) + 1) := by
    unfold unot usizeBound
    omega
  apply Nat.eq_of_testBit_eq
  intro i
  rw [Nat.testBit_and, hmask, Nat.testBit_two_pow_sub_succ (by omega),
    Nat.testBit_two_pow_sub_one, Nat.testBit_mul_two_pow, Nat.testBit_div_two_pow]
  by_cases hik : k ≤ i
  · by_cases hi : i < 64
    · simp [hik, hi, Nat.not_lt.mpr hik]
    · have hzero : x.testBit i = false :=
        Nat.testBit_lt_two_pow (lt_of_lt_of_le hx (Nat.pow_le_pow_right (by omega) (by omega)))
      simp [hik, hzero]
  · simp [hik, Nat.lt_of_not_le hik]

/-! ### Arrays and slices -/

/-- `l[i]`. -/
def index (l : List α) (i : ℕ) : Checked α :=
  match l[i]? with
  | some a => .ok a
  | none => .error .index

/-- `l[i] = a`. -/
def setIndex (l : List α) (i : ℕ) (a : α) : Checked (List α) :=
  if i < l.length then .ok (l.set i a) else .error .index

/-- `v[i] = a` for an array of fixed size. -/
def setArray {n : ℕ} (v : Vector α n) (i : ℕ) (a : α) : Checked (Vector α n) :=
  if h : i < n then .ok (v.set i a h) else .error .index

/-- `&l[a..b]`. -/
def slice (l : List α) (a b : ℕ) : Checked (List α) :=
  if a ≤ b ∧ b ≤ l.length then .ok ((l.drop a).take (b - a)) else .error .slice

/-- `dst[a..b].copy_from_slice(src)`. -/
def copyFromSlice (dst : List α) (a b : ℕ) (src : List α) : Checked (List α) :=
  if a ≤ b ∧ b ≤ dst.length then
    if b - a = src.length then .ok (dst.take a ++ src ++ dst.drop b) else .error .copyLength
  else .error .slice

lemma index_ok {l : List α} {i : ℕ} (h : i < l.length) : index l i = .ok l[i] := by
  simp [index, List.getElem?_eq_getElem h]

lemma setIndex_ok {l : List α} {i : ℕ} (h : i < l.length) (a : α) :
    setIndex l i a = .ok (l.set i a) := if_pos h

lemma setArray_ok {n : ℕ} {v : Vector α n} {i : ℕ} (h : i < n) (a : α) :
    setArray v i a = .ok (v.setIfInBounds i a) := by
  rw [setArray, dif_pos h]
  congr 1
  ext j hj
  rw [Vector.getElem_set, Vector.getElem_setIfInBounds]

lemma slice_ok {l : List α} {a b : ℕ} (hab : a ≤ b) (hb : b ≤ l.length) :
    slice l a b = .ok ((l.drop a).take (b - a)) := if_pos ⟨hab, hb⟩

lemma length_of_slice {l r : List α} {a b : ℕ} (h : slice l a b = .ok r) : r.length = b - a := by
  rw [slice] at h
  split at h
  · obtain rfl := Except.ok.inj h
    rw [List.length_take, List.length_drop]
    omega
  · cases h

lemma copyFromSlice_ok {dst src : List α} {a b : ℕ} (hab : a ≤ b) (hb : b ≤ dst.length)
    (hlen : b - a = src.length) :
    copyFromSlice dst a b src = .ok (dst.take a ++ src ++ dst.drop b) := by
  rw [copyFromSlice, if_pos ⟨hab, hb⟩, if_pos hlen]

/-! ### Loops -/

/-- What one round of a loop decides. -/
inductive Flow (σ ρ : Type)
  /-- Go on with this state. -/
  | next (s : σ)
  /-- `break` with this state. -/
  | brk (s : σ)
  /-- `return` from the function around the loop. -/
  | ret (r : ρ)

/-- `for i in i..i + n`.  The loop ends with a state, or the function returns from it. -/
def forRange (body : ℕ → σ → Checked (Flow σ ρ)) : ℕ → ℕ → σ → Checked (σ ⊕ ρ)
  | _, 0, s => .ok (.inl s)
  | i, n + 1, s => do
      match ← body i s with
      | .next s' => forRange body (i + 1) n s'
      | .brk s' => return .inl s'
      | .ret r => return .inr r

/-- `loop`, for at most the given number of rounds. -/
def loopN (body : σ → Checked (Flow σ ρ)) : ℕ → σ → Checked (σ ⊕ ρ)
  | 0, _ => .error .fuel
  | n + 1, s => do
      match ← body s with
      | .next s' => loopN body n s'
      | .brk s' => return .inl s'
      | .ret r => return .inr r

/-- One round agrees with `f`: it goes on to a state of the invariant with the same value
of `f`, or leaves with the value of `f`. -/
def Round (I : σ → Prop) (f : σ ⊕ ρ) (f' : σ → σ ⊕ ρ) (x : Checked (Flow σ ρ)) : Prop :=
  (∃ s', x = .ok (.next s') ∧ I s' ∧ f = f' s') ∨
    (∃ s', x = .ok (.brk s') ∧ f = .inl s') ∨ (∃ r, x = .ok (.ret r) ∧ f = .inr r)

/-- The rule of the counted loop: a family `f` of functions of the state that every round
respects is what the loop computes. -/
lemma forRange_eq {body : ℕ → σ → Checked (Flow σ ρ)} (I : ℕ → ℕ → σ → Prop)
    (f : ℕ → ℕ → σ → σ ⊕ ρ) (hend : ∀ i s, I i 0 s → f i 0 s = .inl s)
    (hround : ∀ i n s, I i (n + 1) s →
      Round (I (i + 1) n) (f i (n + 1) s) (f (i + 1) n) (body i s)) :
    ∀ i n s, I i n s → forRange body i n s = .ok (f i n s) := by
  intro i n
  induction n generalizing i with
  | zero =>
      intro s hs
      rw [forRange, hend i s hs]
  | succ n ih =>
      intro s hs
      rcases hround i n s hs with ⟨s', hb, hs', hf⟩ | ⟨s', hb, hf⟩ | ⟨r, hb, hf⟩
      · simp only [forRange, hb, ok_bind, hf]
        exact ih (i + 1) s' hs'
      · simp only [forRange, hb, ok_bind, hf, pure_eq_ok]
      · simp only [forRange, hb, ok_bind, hf, pure_eq_ok]

/-- A counted loop keeps what its rounds keep. -/
lemma forRange_inv {body : ℕ → σ → Checked (Flow σ ρ)} (I : σ → Prop)
    (hbody : ∀ i s flow, I s → body i s = .ok flow →
      ∀ s', flow = .next s' ∨ flow = .brk s' → I s') {i n : ℕ} {s s' : σ} (hs : I s)
    (h : forRange body i n s = .ok (.inl s')) : I s' := by
  induction n generalizing i s with
  | zero =>
      obtain rfl := Sum.inl.inj (Except.ok.inj h)
      exact hs
  | succ n ih =>
      rw [forRange] at h
      obtain ⟨flow, hflow, h⟩ := bind_eq_ok.mp h
      cases flow with
      | next s₁ => exact ih (hbody i s _ hs hflow s₁ (.inl rfl)) h
      | brk s₁ =>
          obtain rfl := Sum.inl.inj (Except.ok.inj h)
          exact hbody i s _ hs hflow s₁ (.inr rfl)
      | ret r => cases h

/-- A counted loop that no round breaks ends in the invariant of the rounds, or returns as `Q`
asks. -/
lemma forRange_spec {body : ℕ → σ → Checked (Flow σ ρ)} (I : ℕ → σ → Prop) (Q : ρ → Prop) {n : ℕ}
    (hbody : ∀ i < n, ∀ s, I i s → (∃ s', body i s = .ok (.next s') ∧ I (i + 1) s') ∨
      ∃ r, body i s = .ok (.ret r) ∧ Q r) {i k : ℕ} (hik : i + k = n) {s : σ} (hs : I i s) :
    ∃ out, forRange body i k s = .ok out ∧ (∀ s', out = .inl s' → I n s') ∧
      ∀ r, out = .inr r → Q r := by
  induction k generalizing i s with
  | zero =>
      obtain rfl : i = n := hik
      refine ⟨.inl s, rfl, fun s' hs' => ?_, fun r hr => ?_⟩
      · obtain rfl := Sum.inl.inj hs'
        exact hs
      · cases hr
  | succ k ih =>
      rcases hbody i (by omega) s hs with ⟨s', hb, hs'⟩ | ⟨r, hb, hq⟩
      · obtain ⟨out, hout, hspec⟩ := ih (by omega) hs'
        exact ⟨out, by simp only [forRange, hb, ok_bind, hout], hspec⟩
      · refine ⟨.inr r, by simp only [forRange, hb, ok_bind, pure_eq_ok], ?_, fun r' hr' => ?_⟩
        · intro s' hs'
          cases hs'
        obtain rfl := Sum.inr.inj hr'
        exact hq

lemma loopN_next {body : σ → Checked (Flow σ ρ)} {s s' : σ} (h : body s = .ok (.next s')) (n : ℕ) :
    loopN body (n + 1) s = loopN body n s' := by simp only [loopN, h, ok_bind]

lemma loopN_ret {body : σ → Checked (Flow σ ρ)} {s : σ} {r : ρ} (h : body s = .ok (.ret r)) (n : ℕ) :
    loopN body (n + 1) s = .ok (.inr r) := by simp only [loopN, h, ok_bind, pure_eq_ok]

/-- The rule of the unbounded loop: every round keeps the invariant and lowers the variant `μ`,
or leaves as `Q` asks. -/
lemma loopN_spec {body : σ → Checked (Flow σ ρ)} (I : σ → Prop) (μ : σ → ℕ) (Q : σ ⊕ ρ → Prop)
    (hround : ∀ s, I s → (∃ s', body s = .ok (.next s') ∧ I s' ∧ μ s' < μ s) ∨
      (∃ s', body s = .ok (.brk s') ∧ Q (.inl s')) ∨ (∃ r, body s = .ok (.ret r) ∧ Q (.inr r))) :
    ∀ n s, I s → μ s < n → ∃ out, loopN body n s = .ok out ∧ Q out := by
  intro n
  induction n with
  | zero =>
      intro s _ hn
      omega
  | succ n ih =>
      intro s hs hn
      rcases hround s hs with ⟨s', hb, hs', hlt⟩ | ⟨s', hb, hq⟩ | ⟨r, hb, hq⟩
      · simp only [loopN, hb, ok_bind]
        exact ih s' hs' (by omega)
      · exact ⟨.inl s', by simp only [loopN, hb, ok_bind, pure_eq_ok], hq⟩
      · exact ⟨.inr r, by simp only [loopN, hb, ok_bind, pure_eq_ok], hq⟩

/-- The same rule for a function `f` of the state that every round respects. -/
lemma loopN_eq {body : σ → Checked (Flow σ ρ)} (I : σ → Prop) (μ : σ → ℕ) (f : σ → σ ⊕ ρ)
    (hround : ∀ s, I s → Round (fun s' => I s' ∧ μ s' < μ s) (f s) f (body s)) (n : ℕ) (s : σ)
    (hs : I s) (hn : μ s < n) : loopN body n s = .ok (f s) := by
  obtain ⟨out, hout, heq⟩ : ∃ out, loopN body n s = .ok out ∧ out = f s := by
    refine loopN_spec (fun s' => I s' ∧ f s' = f s) μ (fun out => out = f s) ?_ n s ⟨hs, rfl⟩ hn
    rintro s₁ ⟨hs₁, hf₁⟩
    rcases hround s₁ hs₁ with ⟨s', hb, ⟨hs', hlt⟩, hf⟩ | ⟨s', hb, hf⟩ | ⟨r, hb, hf⟩
    · exact .inl ⟨s', hb, ⟨hs', hf ▸ hf₁⟩, hlt⟩
    · exact .inr (.inl ⟨s', hb, hf ▸ hf₁⟩)
    · exact .inr (.inr ⟨r, hb, hf ▸ hf₁⟩)
  rw [hout, heq]

end Rust
