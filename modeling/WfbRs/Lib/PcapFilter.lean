import WfbRs.Lib.Words

/-!
# Capture filters on radiotap captures

A fragment of the filter language of the capture library: conjunctions of comparisons
`ether[off:size] == value` with numbers in hexadecimal or decimal.  On a capture whose packets
start with a radiotap header, `ether` is the link layer behind that header, whose length is
read from the packet; a comparison outside the packet rejects it.
-/

namespace PcapFilter

/-! ### Syntax -/

/-- `ether[off:size] == value`. -/
structure Cmp where
  off : ℕ
  size : ℕ
  value : ℕ
deriving DecidableEq, Repr

/-- The value of a digit, in bases up to sixteen. -/
def digitVal (c : Char) : Option ℕ :=
  if 48 ≤ c.toNat ∧ c.toNat ≤ 57 then some (c.toNat - 48)
  else if 97 ≤ c.toNat ∧ c.toNat ≤ 102 then some (c.toNat - 87)
  else if 65 ≤ c.toNat ∧ c.toNat ≤ 70 then some (c.toNat - 55)
  else none

/-- The digits at the front of some text, and the text behind them. -/
def digits (base : ℕ) : List Char → List ℕ × List Char
  | [] => ([], [])
  | c :: cs =>
      match digitVal c with
      | some d => if d < base then (d :: (digits base cs).1, (digits base cs).2) else ([], c :: cs)
      | none => ([], c :: cs)

/-- The number with these digits, the most significant first. -/
def ofDigits (base : ℕ) (ds : List ℕ) : ℕ := ds.foldl (fun n d => base * n + d) 0

/-- Drop blanks. -/
def skip (cs : List Char) : List Char := cs.dropWhile (· == ' ')

/-- A symbol, after blanks. -/
def symbol (s cs : List Char) : Option (List Char) :=
  if s.isPrefixOf (skip cs) then some ((skip cs).drop s.length) else none

/-- A number, after blanks; one without `0x` does not start with a zero. -/
def number (cs : List Char) : Option (ℕ × List Char) :=
  match skip cs with
  | '0' :: 'x' :: cs =>
      if (digits 16 cs).1 = [] then none else some (ofDigits 16 (digits 16 cs).1, (digits 16 cs).2)
  | '0' :: _ => none
  | cs =>
      if (digits 10 cs).1 = [] then none else some (ofDigits 10 (digits 10 cs).1, (digits 10 cs).2)

def comparison (cs : List Char) : Option (Cmp × List Char) := do
  let cs ← symbol ['e', 't', 'h', 'e', 'r'] cs
  let cs ← symbol ['['] cs
  let (off, cs) ← number cs
  let cs ← symbol [':'] cs
  let (size, cs) ← number cs
  let cs ← symbol [']'] cs
  let cs ← symbol ['=', '='] cs
  let (value, cs) ← number cs
  return (⟨off, size, value⟩, cs)

/-- Comparisons with `&&` between them, at most `n` of them. -/
def conjunction : ℕ → List Char → Option (List Cmp)
  | 0, _ => none
  | n + 1, cs => do
      let (c, cs) ← comparison cs
      if skip cs = [] then return [c]
      let cs ← symbol ['&', '&'] cs
      let rest ← conjunction n cs
      return c :: rest

/-- The comparisons of a filter expression; `none` outside the fragment. -/
def parse (s : String) : Option (List Cmp) := conjunction s.toList.length s.toList

/-! ### Meaning -/

/-- The link layer of a captured packet: what follows its radiotap header. -/
def linkLayer (pkt : List UInt8) : List UInt8 := pkt.drop (Words.ofLE ((pkt.drop 2).take 2))

def Cmp.Holds (c : Cmp) (pkt : List UInt8) : Prop :=
  4 ≤ pkt.length ∧ c.off + c.size ≤ (linkLayer pkt).length ∧
    Words.ofBE (((linkLayer pkt).drop c.off).take c.size) = c.value

instance (c : Cmp) (pkt : List UInt8) : Decidable (c.Holds pkt) :=
  inferInstanceAs (Decidable (_ ∧ _ ∧ _))

/-- All comparisons hold of the packet. -/
def holds (cs : List Cmp) (pkt : List UInt8) : Bool := cs.all fun c => decide (c.Holds pkt)

/-- A filter program does what its expression says, for every expression of the fragment. -/
def Implements (filter : String → List UInt8 → Bool) : Prop :=
  ∀ s cs, parse s = some cs → ∀ pkt, filter s pkt = holds cs pkt

/-- A filter program for the fragment. -/
def eval (s : String) (pkt : List UInt8) : Bool := ((parse s).map fun cs => holds cs pkt).getD false

lemma implements_eval : Implements eval := by
  intro s cs hparse pkt
  rw [eval, hparse]
  rfl

/-! ### Numbers -/

lemma digitVal_digitChar {n : ℕ} (h : n < 16) : digitVal (Nat.digitChar n) = some n := by
  interval_cases n <;> rfl

lemma digits_digitChar {ns : List ℕ} (h : ∀ n ∈ ns, n < 16) :
    digits 16 (ns.map Nat.digitChar) = (ns, []) := by
  induction ns with
  | nil => rfl
  | cons n ns ih =>
      have hn := h n (by simp)
      have hrest := ih fun m hm => h m (by simp [hm])
      simp only [List.map_cons, digits, digitVal_digitChar hn, hn, if_true, hrest]

/-- A hexadecimal number at the end of the text. -/
lemma number_hex {ns : List ℕ} (hne : ns ≠ []) (h : ∀ n ∈ ns, n < 16) :
    number (' ' :: '0' :: 'x' :: ns.map Nat.digitChar) = some (ofDigits 16 ns, []) := by
  have hskip : skip (' ' :: '0' :: 'x' :: ns.map Nat.digitChar) =
      '0' :: 'x' :: ns.map Nat.digitChar := rfl
  simp only [number, hskip, digits_digitChar h, if_neg hne]

end PcapFilter
