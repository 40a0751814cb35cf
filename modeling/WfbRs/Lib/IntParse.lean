import Mathlib

/-!
# Integers from text

How the standard library of Rust reads an unsigned integer in some radix: an optional plus sign,
then digits up to the end of the text, each checked before the number that it makes.  `Denotes`
is the grammar; the parser accepts exactly what it describes, with the number that it denotes.
-/

namespace IntParse

/-! ### The parser -/

/-- The kinds of error. -/
inductive ErrorKind
  | empty
  | invalidDigit
  | posOverflow
deriving DecidableEq, Repr

/-- What an error is shown as. -/
def ErrorKind.text : ErrorKind → String
  | .empty => "cannot parse integer from empty string"
  | .invalidDigit => "invalid digit found in string"
  | .posOverflow => "number too large to fit in target type"

/-- The value of a digit or a letter. -/
def digitValue (c : Char) : Option ℕ :=
  if 48 ≤ c.toNat ∧ c.toNat ≤ 57 then some (c.toNat - 48)
  else if 97 ≤ c.toNat ∧ c.toNat ≤ 122 then some (c.toNat - 87)
  else if 65 ≤ c.toNat ∧ c.toNat ≤ 90 then some (c.toNat - 55)
  else none

/-- `char::to_digit`. -/
def toDigit (radix : ℕ) (c : Char) : Option ℕ := (digitValue c).filter (· < radix)

/-- The loop over the digits; numbers are below `bound`. -/
def readDigits (bound radix : ℕ) : ℕ → List Char → Except ErrorKind ℕ
  | n, [] => .ok n
  | n, c :: cs =>
      match toDigit radix c with
      | none => .error .invalidDigit
      | some d =>
          if n * radix < bound then
            if n * radix + d < bound then readDigits bound radix (n * radix + d) cs
            else .error .posOverflow
          else .error .posOverflow

/-- `from_str_radix` of an unsigned type. -/
def fromStrRadix (bound radix : ℕ) (text : List Char) : Except ErrorKind ℕ :=
  match text with
  | [] => .error .empty
  | ['+'] => .error .invalidDigit
  | ['-'] => .error .invalidDigit
  | '+' :: rest => readDigits bound radix 0 rest
  | text => readDigits bound radix 0 text

/-! ### The grammar -/

/-- The number with these digits behind `n`. -/
def value (radix : ℕ) (ds : List ℕ) (n : ℕ := 0) : ℕ := ds.foldl (fun n d => n * radix + d) n

/-- The text is these digits. -/
def Spells (radix : ℕ) (text : List Char) (ds : List ℕ) : Prop :=
  text.map (toDigit radix) = ds.map some

/-- The text is an optional sign and the digits of the number. -/
def Denotes (radix : ℕ) (text : List Char) (n : ℕ) : Prop :=
  ∃ sign digits ds, text = sign ++ digits ∧ (sign = [] ∨ sign = ['+']) ∧ digits ≠ [] ∧
    Spells radix digits ds ∧ value radix ds = n

variable {bound radix : ℕ}

lemma spells_cons {c : Char} {cs : List Char} {ds : List ℕ} : Spells radix (c :: cs) ds ↔
    ∃ d ds', toDigit radix c = some d ∧ Spells radix cs ds' ∧ ds = d :: ds' := by
  cases ds with
  | nil => simp [Spells]
  | cons d ds =>
      simp only [Spells, List.map_cons, List.cons.injEq]
      constructor
      · rintro ⟨hd, hds⟩
        exact ⟨d, ds, hd, hds, rfl, rfl⟩
      · rintro ⟨d', ds', hd, hds, rfl, rfl⟩
        exact ⟨hd, hds⟩

/-- More digits do not make the number smaller. -/
lemma le_value (hradix : 0 < radix) (ds : List ℕ) (n : ℕ) : n ≤ value radix ds n := by
  induction ds generalizing n with
  | nil => exact le_rfl
  | cons d ds ih =>
      have hmul : n ≤ n * radix := Nat.le_mul_of_pos_right n hradix
      exact le_trans (by omega) (ih (n * radix + d))

/-- The loop succeeds on digits whose number is below the bound. -/
lemma readDigits_eq_ok (hradix : 0 < radix) {n m : ℕ} (hn : n < bound) {cs : List Char} :
    readDigits bound radix n cs = .ok m ↔
      ∃ ds, Spells radix cs ds ∧ value radix ds n = m ∧ m < bound := by
  induction cs generalizing n with
  | nil =>
      constructor
      · intro h
        obtain rfl := Except.ok.inj h
        exact ⟨[], rfl, rfl, hn⟩
      · rintro ⟨ds, hds, rfl, -⟩
        obtain rfl : ds = [] := by simpa [Spells] using hds
        rfl
  | cons c cs ih =>
      cases hdigit : toDigit radix c with
      | none => simp [readDigits, spells_cons, hdigit]
      | some d =>
          simp only [readDigits, hdigit, spells_cons, Option.some.injEq]
          by_cases hsmall : n * radix + d < bound
          · rw [if_pos (by omega), if_pos hsmall, ih hsmall]
            constructor
            · rintro ⟨ds, hds, hvalue, hm⟩
              exact ⟨d :: ds, ⟨d, ds, rfl, hds, rfl⟩, hvalue, hm⟩
            · rintro ⟨_, ⟨d', ds, rfl, hds, rfl⟩, hvalue, hm⟩
              exact ⟨ds, hds, hvalue, hm⟩
          · -- the number stays too large
            refine iff_of_false (by split <;> simp_all) ?_
            rintro ⟨_, ⟨d', ds, rfl, -, rfl⟩, rfl, hm⟩
            exact hsmall (lt_of_le_of_lt (le_value hradix ds (n * radix + d)) hm)

/-- A sign is not a digit. -/
lemma not_spells_sign {c : Char} (h : toDigit radix c = none) {cs : List Char} {ds : List ℕ} :
    ¬ Spells radix (c :: cs) ds := by
  rw [spells_cons]
  rintro ⟨d, ds', hd, -⟩
  rw [h] at hd
  cases hd

lemma denotes_plus {rest : List Char} {n : ℕ} : Denotes radix ('+' :: rest) n ↔
    rest ≠ [] ∧ ∃ ds, Spells radix rest ds ∧ value radix ds = n := by
  constructor
  · rintro ⟨sign, digits, ds, htext, rfl | rfl, hne, hds, hvalue⟩
    · rw [List.nil_append] at htext
      exact absurd (htext ▸ hds) (not_spells_sign rfl)
    · obtain rfl : rest = digits := List.tail_eq_of_cons_eq htext
      exact ⟨hne, ds, hds, hvalue⟩
  · rintro ⟨hne, ds, hds, hvalue⟩
    exact ⟨['+'], rest, ds, rfl, .inr rfl, hne, hds, hvalue⟩

lemma denotes_of_ne {text : List Char} (htext : ∀ rest, text ≠ '+' :: rest) {n : ℕ} :
    Denotes radix text n ↔ text ≠ [] ∧ ∃ ds, Spells radix text ds ∧ value radix ds = n := by
  constructor
  · rintro ⟨sign, digits, ds, rfl, rfl | rfl, hne, hds, hvalue⟩
    · exact ⟨hne, ds, hds, hvalue⟩
    · exact absurd rfl (htext digits)
  · rintro ⟨hne, ds, hds, hvalue⟩
    exact ⟨[], text, ds, rfl, .inl rfl, hne, hds, hvalue⟩

/-- **Exact acceptance.** The parser accepts the texts that denote a number below the bound. -/
theorem fromStrRadix_eq_ok (hradix : 0 < radix) (hbound : 0 < bound) {text : List Char} {n : ℕ} :
    fromStrRadix bound radix text = .ok n ↔ Denotes radix text n ∧ n < bound := by
  have hread (cs : List Char) : readDigits bound radix 0 cs = .ok n ↔
      (∃ ds, Spells radix cs ds ∧ value radix ds = n) ∧ n < bound := by
    rw [readDigits_eq_ok hradix hbound]
    exact ⟨fun ⟨ds, hds, hvalue, hn⟩ => ⟨⟨ds, hds, hvalue⟩, hn⟩,
      fun ⟨⟨ds, hds, hvalue⟩, hn⟩ => ⟨ds, hds, hvalue, hn⟩⟩
  unfold fromStrRadix
  split
  case h_1 => simp [denotes_of_ne]
  case h_2 => simp [denotes_plus]
  case h_3 =>
    rw [denotes_of_ne (by simp)]
    refine iff_of_false (by simp) ?_
    rintro ⟨⟨-, ds, hds, -⟩, -⟩
    exact not_spells_sign rfl hds
  case h_4 rest hrest =>
    rw [hread, denotes_plus, and_iff_right hrest]
  case h_5 hne _ _ hplus =>
    rw [hread, denotes_of_ne hplus, and_iff_right hne]

/-- The loop overflows when the digits up to some point are too large, whatever follows. -/
lemma readDigits_eq_posOverflow {n : ℕ} (hn : n < bound) {cs : List Char} :
    readDigits bound radix n cs = .error .posOverflow ↔
      ∃ front rest ds, cs = front ++ rest ∧ Spells radix front ds ∧ bound ≤ value radix ds n := by
  -- no digits at all are not too many
  have hnil {ds : List ℕ} (hds : Spells radix [] ds) {n : ℕ} (hn : n < bound) :
      ¬ bound ≤ value radix ds n := by
    obtain rfl : ds = [] := by simpa [Spells] using hds
    exact Nat.not_le_of_lt hn
  induction cs generalizing n with
  | nil =>
      refine iff_of_false (by simp [readDigits]) ?_
      rintro ⟨front, rest, ds, hcs, hds, hvalue⟩
      obtain ⟨rfl, -⟩ := List.append_eq_nil_iff.mp hcs.symm
      exact hnil hds hn hvalue
  | cons c cs ih =>
      have hfront : (∃ front rest ds, c :: cs = front ++ rest ∧ Spells radix front ds ∧
          bound ≤ value radix ds n) ↔ ∃ d, toDigit radix c = some d ∧
            ∃ front rest ds, cs = front ++ rest ∧ Spells radix front ds ∧
              bound ≤ value radix ds (n * radix + d) := by
        constructor
        · rintro ⟨front, rest, ds, hcs, hds, hvalue⟩
          cases front with
          | nil => exact absurd hvalue (hnil hds hn)
          | cons c' front =>
              obtain ⟨rfl, rfl⟩ := List.cons.inj hcs
              obtain ⟨d, ds', hd, hds', rfl⟩ := spells_cons.mp hds
              exact ⟨d, hd, front, rest, ds', rfl, hds', hvalue⟩
        · rintro ⟨d, hd, front, rest, ds, rfl, hds, hvalue⟩
          exact ⟨c :: front, rest, d :: ds, rfl, spells_cons.mpr ⟨d, ds, hd, hds, rfl⟩, hvalue⟩
      rw [hfront]
      cases hdigit : toDigit radix c with
      | none => simp [readDigits, hdigit]
      | some d =>
          simp only [readDigits, hdigit, Option.some.injEq, exists_eq_left']
          by_cases hsmall : n * radix + d < bound
          · rw [if_pos (by omega), if_pos hsmall]
            exact ih hsmall
          · refine iff_of_true (by simp [hsmall]) ?_
            exact ⟨[], cs, [], rfl, rfl, Nat.le_of_not_lt hsmall⟩

lemma readDigits_ne_empty (n : ℕ) (cs : List Char) :
    readDigits bound radix n cs ≠ .error .empty := by
  induction cs generalizing n with
  | nil => simp [readDigits]
  | cons c cs ih =>
      cases hdigit : toDigit radix c with
      | none => simp [readDigits, hdigit]
      | some d =>
          simp only [readDigits, hdigit]
          split
          · split
            · exact ih _
            · simp
          · simp

/-- **Which error.** A text is empty, or it begins with a number that is too large, or something
in it is not a digit. -/
theorem fromStrRadix_eq_error (hbound : 0 < bound) {text : List Char} :
    (fromStrRadix bound radix text = .error .empty ↔ text = []) ∧
    (fromStrRadix bound radix text = .error .posOverflow ↔
      ∃ front rest m, text = front ++ rest ∧ Denotes radix front m ∧ bound ≤ m) := by
  have hfront {cs : List Char} : readDigits bound radix 0 cs = .error .posOverflow ↔
      ∃ front rest m, cs = front ++ rest ∧ front ≠ [] ∧
        (∃ ds, Spells radix front ds ∧ value radix ds = m) ∧ bound ≤ m := by
    rw [readDigits_eq_posOverflow hbound]
    constructor
    · rintro ⟨front, rest, ds, hcs, hds, hvalue⟩
      refine ⟨front, rest, _, hcs, ?_, ⟨ds, hds, rfl⟩, hvalue⟩
      rintro rfl
      obtain rfl : ds = [] := by simpa [Spells] using hds
      exact absurd hvalue (Nat.not_le_of_lt hbound)
    · rintro ⟨front, rest, m, hcs, -, ⟨ds, hds, rfl⟩, hm⟩
      exact ⟨front, rest, ds, hcs, hds, hm⟩
  have hnil {m : ℕ} : ¬ Denotes radix [] m := by simp [denotes_of_ne]
  refine ⟨?_, ?_⟩
  · unfold fromStrRadix
    split
    case h_1 => simp
    case h_2 => simp
    case h_3 => simp
    case h_4 rest _ => exact iff_of_false (readDigits_ne_empty 0 rest) (by simp)
    case h_5 hne _ _ _ => exact iff_of_false (readDigits_ne_empty 0 text) hne
  · unfold fromStrRadix
    split
    case h_1 =>
      refine iff_of_false (by simp) ?_
      rintro ⟨front, rest, m, htext, hm, -⟩
      obtain ⟨rfl, -⟩ := List.append_eq_nil_iff.mp htext.symm
      exact hnil hm
    case h_2 =>
      refine iff_of_false (by simp) ?_
      rintro ⟨front, rest, m, htext, hm, -⟩
      rcases List.singleton_eq_append_iff.mp htext with ⟨rfl, -⟩ | ⟨rfl, -⟩
      · exact hnil hm
      · exact (denotes_plus.mp hm).1 rfl
    case h_3 =>
      refine iff_of_false (by simp) ?_
      rintro ⟨front, rest, m, htext, hm, -⟩
      rcases List.singleton_eq_append_iff.mp htext with ⟨rfl, -⟩ | ⟨rfl, -⟩
      · exact hnil hm
      · obtain ⟨-, ds, hds, -⟩ := (denotes_of_ne (by simp)).mp hm
        exact not_spells_sign rfl hds
    case h_4 rest _ =>
      rw [hfront]
      constructor
      · rintro ⟨front, rest', m, rfl, hne, hds, hm⟩
        exact ⟨'+' :: front, rest', m, rfl, denotes_plus.mpr ⟨hne, hds⟩, hm⟩
      · rintro ⟨front, rest', m, htext, hdenotes, hm⟩
        cases front with
        | nil => exact absurd hdenotes hnil
        | cons c front =>
            obtain ⟨rfl, rfl⟩ := List.cons.inj htext
            obtain ⟨hne, hds⟩ := denotes_plus.mp hdenotes
            exact ⟨front, rest', m, rfl, hne, hds, hm⟩
    case h_5 _ _ _ hplus =>
      rw [hfront]
      have hstart {front rest : List Char} (htext : text = front ++ rest) :
          ∀ rest', front ≠ '+' :: rest' := by
        rintro rest' rfl
        exact hplus _ htext
      constructor
      · rintro ⟨front, rest, m, htext, hne, hds, hm⟩
        exact ⟨front, rest, m, htext, (denotes_of_ne (hstart htext)).mpr ⟨hne, hds⟩, hm⟩
      · rintro ⟨front, rest, m, htext, hdenotes, hm⟩
        obtain ⟨hne, hds⟩ := (denotes_of_ne (hstart htext)).mp hdenotes
        exact ⟨front, rest, m, htext, hne, hds, hm⟩

/-! ### Printed numbers -/

lemma toDigit_digitChar {d : ℕ} (h : d < radix) (hradix : radix ≤ 16) :
    toDigit radix (Nat.digitChar d) = some d := by
  have hd : d < 16 := by omega
  have hvalue : digitValue (Nat.digitChar d) = some d := by
    clear h
    interval_cases d <;> rfl
  rw [toDigit, hvalue, Option.filter_some, if_pos (by simpa using h)]

/-- A number printed in a radix up to sixteen denotes itself. -/
lemma spells_toDigits (hone : 1 < radix) (hradix : radix ≤ 16) (n : ℕ) :
    ∃ ds, Spells radix (Nat.toDigits radix n) ds ∧ value radix ds = n := by
  induction n using Nat.strongRecOn with
  | ind n ih =>
      rw [Nat.toDigits_eq_if hone]
      by_cases hn : n < radix
      · rw [if_pos hn]
        exact ⟨[n], by simp [Spells, toDigit_digitChar hn hradix], by simp [value]⟩
      · rw [if_neg hn]
        obtain ⟨ds, hds, hvalue⟩ := ih (n / radix) (Nat.div_lt_self (by omega) hone)
        refine ⟨ds ++ [n % radix], ?_, ?_⟩
        · rw [Spells, List.map_append, List.map_append, hds]
          simp [toDigit_digitChar (Nat.mod_lt n (by omega)) hradix]
        · rw [value] at hvalue
          rw [value, List.foldl_append, hvalue]
          exact Nat.div_add_mod' n radix

lemma denotes_toDigits (hone : 1 < radix) (hradix : radix ≤ 16) (n : ℕ) :
    Denotes radix (Nat.toDigits radix n) n := by
  obtain ⟨ds, hds, hvalue⟩ := spells_toDigits hone hradix n
  exact ⟨[], _, ds, rfl, .inl rfl, Nat.toDigits_ne_nil, hds, hvalue⟩

end IntParse
