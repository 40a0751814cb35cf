import WfbRs.Lib.IntParse
import WfbRs.Lib.Rust

/-!
# The stream id of the example programs (`parse_u32` and `main`)

The example programs read their stream id from the command line, in decimal or in hexadecimal, and
refuse zero.
-/

namespace WfbRs

open IntParse

namespace Examples

/-! ### The code -/

/-- The property `White_Space` of Unicode. -/
def isWhitespace (c : Char) : Bool :=
  decide (9 ≤ c.toNat ∧ c.toNat ≤ 13 ∨ c.toNat = 0x20 ∨ c.toNat = 0x85 ∨ c.toNat = 0xa0 ∨
    c.toNat = 0x1680 ∨ 0x2000 ≤ c.toNat ∧ c.toNat ≤ 0x200a ∨ c.toNat = 0x2028 ∨
    c.toNat = 0x2029 ∨ c.toNat = 0x202f ∨ c.toNat = 0x205f ∨ c.toNat = 0x3000)

/-- `str::trim`. -/
def trim (s : List Char) : List Char :=
  ((s.dropWhile isWhitespace).reverse.dropWhile isWhitespace).reverse

/-- `parse_u32`. -/
def parseU32 (s : String) : Except String UInt32 :=
  let s := trim s.toList
  let parsed :=
    if ['0', 'x'].isPrefixOf s ∨ ['0', 'X'].isPrefixOf s then
      fromStrRadix (2 ^ 32) 16 (s.drop 2)
    else fromStrRadix (2 ^ 32) 10 s
  (parsed.mapError ErrorKind.text).map UInt32.ofNat

/-! ### The numbers it reads -/

/-- A number in decimal, or in hexadecimal behind `0x`. -/
def Literal (text : List Char) (n : ℕ) : Prop :=
  Denotes 10 text n ∨ ∃ x digits, (x = 'x' ∨ x = 'X') ∧ text = '0' :: x :: digits ∧
    Denotes 16 digits n

/-- The text is this, with white space around it. -/
def Around (text body : List Char) : Prop :=
  ∃ before after, text = before ++ body ++ after ∧ (∀ c ∈ before, isWhitespace c) ∧
    ∀ c ∈ after, isWhitespace c

lemma not_isWhitespace_of_digit {radix d : ℕ} {c : Char} (h : toDigit radix c = some d) :
    ¬ isWhitespace c := by
  obtain ⟨hd, -⟩ := Option.filter_eq_some_iff.mp h
  have hrange : 48 ≤ c.toNat ∧ c.toNat ≤ 57 ∨ 97 ≤ c.toNat ∧ c.toNat ≤ 122 ∨
      65 ≤ c.toNat ∧ c.toNat ≤ 90 := by
    by_contra hno
    push Not at hno
    simp only [digitValue] at hd
    rw [if_neg (by omega), if_neg (by omega), if_neg (by omega)] at hd
    cases hd
  simp only [isWhitespace, decide_eq_true_eq]
  omega

/-- White space in front goes. -/
lemma dropWhile_before {before rest : List Char} (h : ∀ c ∈ before, isWhitespace c)
    (hrest : ∀ c ∈ rest.head?, ¬ isWhitespace c) :
    (before ++ rest).dropWhile isWhitespace = rest := by
  rw [List.dropWhile_append_of_pos h]
  cases rest with
  | nil => rfl
  | cons c rest => exact List.dropWhile_cons_of_neg (hrest c rfl)

lemma around_trim (s : List Char) : Around s (trim s) := by
  have hfront := List.takeWhile_append_dropWhile (p := isWhitespace) (l := s)
  have hback := List.takeWhile_append_dropWhile (p := isWhitespace)
    (l := (s.dropWhile isWhitespace).reverse)
  refine ⟨s.takeWhile isWhitespace,
    ((s.dropWhile isWhitespace).reverse.takeWhile isWhitespace).reverse, ?_,
    fun c hc => List.mem_takeWhile_imp hc,
    fun c hc => List.mem_takeWhile_imp (List.mem_reverse.mp hc)⟩
  rw [trim, List.append_assoc, ← List.reverse_append, hback, List.reverse_reverse, hfront]

/-- Text that begins and ends with something else than white space is what is left of it. -/
lemma trim_around {s body : List Char} (h : Around s body) (hne : body ≠ [])
    (hhead : ∀ c ∈ body.head?, ¬ isWhitespace c) (hlast : ∀ c ∈ body.getLast?, ¬ isWhitespace c) :
    trim s = body := by
  obtain ⟨before, after, rfl, hbefore, hafter⟩ := h
  obtain ⟨c, rest, rfl⟩ := List.exists_cons_of_ne_nil hne
  have hdrop : (before ++ (c :: rest) ++ after).dropWhile isWhitespace = (c :: rest) ++ after := by
    rw [List.append_assoc]
    exact dropWhile_before hbefore hhead
  rw [trim, hdrop, List.reverse_append, dropWhile_before, List.reverse_reverse]
  · exact fun d hd => hafter d (List.mem_reverse.mp hd)
  · rw [List.head?_reverse]
    exact hlast

/-- The first and the last character of a number. -/
lemma edges_of_spells {radix : ℕ} {text : List Char} {ds : List ℕ} (h : Spells radix text ds) :
    ∀ c ∈ text, ¬ isWhitespace c := by
  intro c hc
  have hmem : toDigit radix c ∈ ds.map some := h ▸ List.mem_map_of_mem hc
  obtain ⟨d, -, hd⟩ := List.mem_map.mp hmem
  exact not_isWhitespace_of_digit hd.symm

lemma not_isWhitespace_of_denotes {radix : ℕ} {text : List Char} {n : ℕ}
    (h : Denotes radix text n) : text ≠ [] ∧ ∀ c ∈ text, ¬ isWhitespace c := by
  obtain ⟨sign, digits, ds, rfl, hsign, hne, hds, -⟩ := h
  refine ⟨by simp [hne], fun c hc => ?_⟩
  rcases List.mem_append.mp hc with hc | hc
  · rcases hsign with rfl | rfl
    · cases hc
    · obtain rfl := List.mem_singleton.mp hc
      decide
  · exact edges_of_spells hds c hc

/-- There is no white space in a literal. -/
lemma not_isWhitespace_of_literal {text : List Char} {n : ℕ} (h : Literal text n) :
    text ≠ [] ∧ ∀ c ∈ text, ¬ isWhitespace c := by
  rcases h with h | ⟨x, digits, hx, rfl, h⟩
  · exact not_isWhitespace_of_denotes h
  · refine ⟨by simp, fun c hc => ?_⟩
    rcases List.mem_cons.mp hc with rfl | hc
    · decide
    · rcases List.mem_cons.mp hc with rfl | hc
      · rcases hx with rfl | rfl <;> decide
      · exact (not_isWhitespace_of_denotes h).2 c hc

lemma trim_literal {s body : List Char} {n : ℕ} (h : Around s body) (hbody : Literal body n) :
    trim s = body := by
  obtain ⟨hne, hall⟩ := not_isWhitespace_of_literal hbody
  exact trim_around h hne (fun c hc => hall c (List.mem_of_mem_head? hc))
    fun c hc => hall c (List.mem_of_getLast? hc)

/-! ### Exact acceptance -/

/-- `parse_u32` in characters, before its results are wrapped. -/
def parseText (text : List Char) : Except ErrorKind ℕ :=
  if ['0', 'x'].isPrefixOf text ∨ ['0', 'X'].isPrefixOf text then
    fromStrRadix (2 ^ 32) 16 (text.drop 2)
  else fromStrRadix (2 ^ 32) 10 text

lemma parseU32_eq (s : String) :
    parseU32 s = ((parseText (trim s.toList)).mapError ErrorKind.text).map UInt32.ofNat := rfl

/-- The texts of the errors differ. -/
lemma parseU32_eq_error {s : String} {kind : ErrorKind} :
    parseU32 s = .error kind.text ↔ parseText (trim s.toList) = .error kind := by
  rw [parseU32_eq]
  cases parseText (trim s.toList) with
  | ok m => simp [Except.mapError, Except.map]
  | error kind' =>
      simp only [Except.mapError, Except.map, Except.error.injEq]
      refine ⟨fun h => ?_, congrArg _⟩
      cases kind <;> cases kind' <;> first | rfl | exact absurd h (by decide)

/-- Text behind which a hexadecimal number stands. -/
lemma hexPrefix_iff {text : List Char} :
    ['0', 'x'].isPrefixOf text ∨ ['0', 'X'].isPrefixOf text ↔
      ∃ x rest, (x = 'x' ∨ x = 'X') ∧ text = '0' :: x :: rest := by
  constructor
  · rintro (h | h) <;> obtain ⟨rest, rfl⟩ := List.isPrefixOf_iff_prefix.mp h
    · exact ⟨'x', rest, .inl rfl, rfl⟩
    · exact ⟨'X', rest, .inr rfl, rfl⟩
  · rintro ⟨x, rest, rfl | rfl, rfl⟩
    · exact .inl rfl
    · exact .inr rfl

/-- An `x` is not a decimal digit. -/
lemma not_denotes_ten {x : Char} (hx : x = 'x' ∨ x = 'X') {rest : List Char} {n : ℕ} :
    ¬ Denotes 10 ('0' :: x :: rest) n := by
  intro h
  obtain ⟨-, ds, hds, -⟩ := (denotes_of_ne (by simp)).mp h
  obtain ⟨d, ds', -, hds', -⟩ := spells_cons.mp hds
  exact not_spells_sign (by rcases hx with rfl | rfl <;> rfl) hds'

lemma parseText_eq_ok {text : List Char} {n : ℕ} :
    parseText text = .ok n ↔ Literal text n ∧ n < 2 ^ 32 := by
  by_cases hhex : ∃ x rest, (x = 'x' ∨ x = 'X') ∧ text = '0' :: x :: rest
  · rw [parseText, if_pos (hexPrefix_iff.mpr hhex), fromStrRadix_eq_ok (by omega) (by omega)]
    obtain ⟨x, rest, hx, rfl⟩ := hhex
    refine and_congr_left' ?_
    constructor
    · exact fun h => .inr ⟨x, rest, hx, rfl, h⟩
    · rintro (h | ⟨x', digits, -, htext, h⟩)
      · exact absurd h (not_denotes_ten hx)
      · obtain ⟨-, htext⟩ := List.cons.inj htext
        obtain ⟨-, rfl⟩ := List.cons.inj htext
        exact h
  · rw [parseText, if_neg (mt hexPrefix_iff.mp hhex), fromStrRadix_eq_ok (by omega) (by omega)]
    refine and_congr_left' ⟨.inl, ?_⟩
    rintro (h | ⟨x, digits, hx, rfl, -⟩)
    · exact h
    · exact absurd ⟨x, digits, hx, rfl⟩ hhex

lemma parseU32_eq_ok {s : String} {n : UInt32} :
    parseU32 s = .ok n ↔ parseText (trim s.toList) = .ok n.toNat := by
  rw [parseU32_eq]
  cases hparse : parseText (trim s.toList) with
  | error kind => simp [Except.mapError, Except.map]
  | ok m =>
      have hm := (parseText_eq_ok.mp hparse).2
      simp only [Except.mapError, Except.map, Except.ok.injEq]
      constructor
      · rintro rfl
        rw [UInt32.toNat_ofNat', Nat.mod_eq_of_lt hm]
      · rintro rfl
        exact UInt32.ofNat_toNat

/-- In decimal, no more than the zero of `0x` is a number. -/
lemma eq_zero_of_denotes_ten {x : Char} (hx : x = 'x' ∨ x = 'X') {rest front rest' : List Char}
    (htext : '0' :: x :: rest = front ++ rest') {m : ℕ} (h : Denotes 10 front m) : m = 0 := by
  cases front with
  | nil => simp [denotes_of_ne] at h
  | cons c front =>
      obtain ⟨rfl, htail⟩ := List.cons.inj htext
      cases front with
      | cons c' front =>
          obtain ⟨rfl, -⟩ := List.cons.inj htail
          exact absurd h (not_denotes_ten hx)
      | nil =>
          obtain ⟨-, ds, hds, rfl⟩ := (denotes_of_ne (by simp)).mp h
          obtain ⟨d, ds', hd, hds', rfl⟩ := spells_cons.mp hds
          obtain rfl : ds' = [] := by simpa [Spells] using hds'
          obtain rfl : 0 = d := Option.some.inj hd
          rfl

lemma parseText_eq_error {text : List Char} :
    (parseText text = .error .empty ↔ text = [] ∨ text = ['0', 'x'] ∨ text = ['0', 'X']) ∧
    (parseText text = .error .posOverflow ↔
      ∃ front rest m, text = front ++ rest ∧ Literal front m ∧ 2 ^ 32 ≤ m) := by
  by_cases hhex : ∃ x rest, (x = 'x' ∨ x = 'X') ∧ text = '0' :: x :: rest
  · rw [parseText, if_pos (hexPrefix_iff.mpr hhex)]
    obtain ⟨x, rest, hx, rfl⟩ := hhex
    obtain ⟨hempty, hoverflow⟩ :=
      @fromStrRadix_eq_error (2 ^ 32) 16 (by omega) (('0' :: x :: rest).drop 2)
    rw [hempty, hoverflow]
    refine ⟨by rcases hx with rfl | rfl <;> simp, ?_⟩
    constructor
    · rintro ⟨front, rest', m, hrest, hm, hle⟩
      have hrest : rest = front ++ rest' := hrest
      exact ⟨'0' :: x :: front, rest', m, by rw [hrest]; rfl, .inr ⟨x, front, hx, rfl, hm⟩, hle⟩
    · rintro ⟨front, rest', m, htext, hm | ⟨x', front, -, rfl, hm⟩, hle⟩
      · exact absurd hle (by rw [eq_zero_of_denotes_ten hx htext hm]; decide)
      · obtain ⟨-, htext⟩ := List.cons.inj htext
        obtain ⟨-, htext⟩ := List.cons.inj htext
        exact ⟨front, rest', m, htext, hm, hle⟩
  · rw [parseText, if_neg (mt hexPrefix_iff.mp hhex)]
    obtain ⟨hempty, hoverflow⟩ := @fromStrRadix_eq_error (2 ^ 32) 10 (by omega) text
    rw [hempty, hoverflow]
    constructor
    · refine ⟨.inl, ?_⟩
      rintro (rfl | rfl | rfl)
      · rfl
      · exact absurd ⟨'x', [], .inl rfl, rfl⟩ hhex
      · exact absurd ⟨'X', [], .inr rfl, rfl⟩ hhex
    · constructor
      · rintro ⟨front, rest, m, htext, hm, hle⟩
        exact ⟨front, rest, m, htext, .inl hm, hle⟩
      · rintro ⟨front, rest, m, rfl, hm | ⟨x, digits, hx, rfl, -⟩, hle⟩
        · exact ⟨front, rest, m, rfl, hm, hle⟩
        · exact absurd ⟨x, digits ++ rest, hx, rfl⟩ hhex

/-- **The numbers of `parse_u32`.** It reads the literals below `2 ^ 32`, with any white space
around them; it complains about an empty number when there is nothing, or nothing behind `0x`, about
a large one when some front of the text is a literal that is too large, and else about a digit. -/
theorem parseU32_exact (s : String) :
    (∀ n, parseU32 s = .ok n ↔ ∃ body, Around s.toList body ∧ Literal body n.toNat) ∧
    (parseU32 s = .error ErrorKind.empty.text ↔
      trim s.toList = [] ∨ trim s.toList = ['0', 'x'] ∨ trim s.toList = ['0', 'X']) ∧
    (parseU32 s = .error ErrorKind.posOverflow.text ↔
      ∃ front rest m, trim s.toList = front ++ rest ∧ Literal front m ∧ 2 ^ 32 ≤ m) := by
  obtain ⟨hempty, hoverflow⟩ := @parseText_eq_error (trim s.toList)
  refine ⟨fun n => ?_, ?_, ?_⟩
  · rw [parseU32_eq_ok, parseText_eq_ok, and_iff_left n.toNat_lt]
    constructor
    · exact fun h => ⟨_, around_trim _, h⟩
    · rintro ⟨body, hbody, hliteral⟩
      rwa [trim_literal hbody hliteral]
  · rw [← hempty, parseU32_eq_error]
  · rw [← hoverflow, parseU32_eq_error]

/-- Every number is read back as it is printed. -/
theorem parseU32_printed (n : UInt32) :
    parseU32 (String.ofList (Nat.toDigits 10 n.toNat)) = .ok n ∧
      parseU32 (String.ofList ('0' :: 'x' :: Nat.toDigits 16 n.toNat)) = .ok n := by
  have hread {text : List Char} (h : Literal text n.toNat) :
      parseU32 (String.ofList text) = .ok n := by
    rw [parseU32_eq_ok, String.toList_ofList,
      trim_literal ⟨[], [], by simp, by simp, by simp⟩ h, parseText_eq_ok]
    exact ⟨h, n.toNat_lt⟩
  exact ⟨hread (.inl (denotes_toDigits (by omega) (by omega) _)),
    hread (.inr ⟨'x', _, .inl rfl, rfl, denotes_toDigits (by omega) (by omega) _⟩)⟩

end Examples

end WfbRs
