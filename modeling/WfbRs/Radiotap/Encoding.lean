import WfbRs.Radiotap.Decode

/-!
# Radiotap headers and what is read back from them

The layout of a radiotap header as its standard describes it: version, length, present words,
and the arguments in increasing order, each at the next multiple of its alignment.  The bytes
between the arguments are arbitrary.  `parse_radiotapPacket` says which arguments the parser
reads back from such a header: those of the known fields of the first present word.
-/

namespace WfbRs

open Rust

/-! ### Laying out arguments -/

/-- An argument of a known field, as long as the field is. -/
def Arg.WellSized (a : Arg) : Prop :=
  (fieldLayout a.field).isSome ∧ a.bytes.length = fieldSize a.field

/-- Arguments from an offset on, each aligned; `pad` gives the byte at an unused offset. -/
def layArgs (pad : ℕ → UInt8) : ℕ → List Arg → List UInt8
  | _, [] => []
  | off, a :: as =>
      (List.range' off (fieldStart off a.field - off)).map pad ++
        (a.bytes ++ layArgs pad (fieldStart off a.field + fieldSize a.field) as)

variable {pad : ℕ → UInt8}

lemma length_layArgs (pad : ℕ → UInt8) {as : List Arg} (has : ∀ a ∈ as, a.WellSized) (off : ℕ) :
    off + (layArgs pad off as).length = argsEnd off (as.map Arg.field) := by
  induction as generalizing off with
  | nil => rfl
  | cons a as ih =>
      have hsize := (has a (by simp)).2
      have hstart := le_fieldStart off a.field
      have hrest := ih (fun b hb => has b (by simp [hb])) (fieldStart off a.field + fieldSize a.field)
      rw [List.map_cons, argsEnd_cons, ← hrest]
      simp only [layArgs, List.length_append, List.length_map, List.length_range', hsize]
      omega

lemma layArgs_append (off : ℕ) (as bs : List Arg) :
    layArgs pad off (as ++ bs) =
      layArgs pad off as ++ layArgs pad (argsEnd off (as.map Arg.field)) bs := by
  induction as generalizing off with
  | nil => rfl
  | cons a as ih =>
      rw [List.cons_append, layArgs, layArgs, ih, List.map_cons, argsEnd_cons]
      simp only [List.append_assoc]

/-- The parser finds the arguments where they were laid. -/
lemma fieldArgs_layArgs {as : List Arg} (has : ∀ a ∈ as, a.WellSized) (front suffix : List UInt8) :
    fieldArgs (front ++ (layArgs pad front.length as ++ suffix)) front.length (as.map Arg.field) =
      as := by
  obtain ⟨off, hoff⟩ : ∃ off, front.length = off := ⟨_, rfl⟩
  rw [hoff]
  induction as generalizing off front with
  | nil => rfl
  | cons a as ih =>
      have hsize := (has a (by simp)).2
      have hstart := le_fieldStart off a.field
      -- what is in front of the argument, and of the next one
      let gap := (List.range' off (fieldStart off a.field - off)).map pad
      have hgap : (front ++ gap).length = fieldStart off a.field := by
        simp only [gap, List.length_append, List.length_map, List.length_range', hoff]
        omega
      have hfront : (front ++ (gap ++ a.bytes)).length =
          fieldStart off a.field + fieldSize a.field := by
        rw [← List.append_assoc, List.length_append, hgap, hsize]
      have hsplit : front ++ (layArgs pad off (a :: as) ++ suffix) =
          (front ++ gap) ++ (a.bytes ++
            (layArgs pad (fieldStart off a.field + fieldSize a.field) as ++ suffix)) := by
        simp only [layArgs, gap, List.append_assoc]
      have hrest := ih (fun b hb => has b (by simp [hb])) (front ++ (gap ++ a.bytes)) _ hfront
      have hbytes : ((front ++ (layArgs pad off (a :: as) ++ suffix)).drop
          (fieldStart off a.field)).take (fieldSize a.field) = a.bytes := by
        rw [hsplit, List.drop_left' hgap, List.take_left' hsize]
      rw [List.map_cons, fieldArgs, hbytes]
      congr 1
      rw [hsplit]
      simpa only [List.append_assoc] using hrest

/-! ### The present words -/

/-- The bytes of the present words. -/
def presentBytes (words : List UInt32) : List UInt8 := words.flatMap fun w => Words.toLE 4 w.toNat

@[simp] lemma length_presentBytes (words : List UInt32) :
    (presentBytes words).length = 4 * words.length := by
  induction words with
  | nil => rfl
  | cons w words ih =>
      simp only [presentBytes, List.flatMap_cons, List.length_append, Words.length_toLE,
        List.length_cons] at ih ⊢
      omega

lemma leWord_toLE (w : UInt32) : ∃ b₀ b₁ b₂ b₃, Words.toLE 4 w.toNat = [b₀, b₁, b₂, b₃] ∧
    leWord b₀ b₁ b₂ b₃ = w := by
  refine ⟨_, _, _, _, rfl, ?_⟩
  have h := Words.ofLE_four w
  exact (congrArg UInt32.ofNat h).trans (UInt32.ofNat_toNat)

/-- A chain of words, of which all but the last have the extension bit. -/
lemma presentChain_presentBytes (ws : List UInt32) {w : UInt32}
    (hws : ∀ v ∈ ws, v &&& 0x80000000 ≠ 0) (hw : w &&& 0x80000000 = 0) (rest : List UInt8) :
    presentChain (presentBytes (ws ++ [w]) ++ rest) = some ((ws ++ [w]).map (· &&& 0x7fffffff)) := by
  induction ws with
  | nil =>
      obtain ⟨b₀, b₁, b₂, b₃, hbytes, hword⟩ := leWord_toLE w
      simp only [presentBytes, List.nil_append, List.flatMap_cons, List.flatMap_nil, hbytes,
        List.append_nil, List.cons_append, List.map_cons, List.map_nil]
      rw [presentChain, hword, if_neg (by simpa using hw)]
  | cons v ws ih =>
      obtain ⟨b₀, b₁, b₂, b₃, hbytes, hword⟩ := leWord_toLE v
      have hrest := ih fun u hu => hws u (by simp [hu])
      simp only [presentBytes] at hrest
      simp only [presentBytes, List.cons_append, List.flatMap_cons, hbytes, List.nil_append,
        List.map_cons]
      rw [presentChain, hword, if_pos (hws v (by simp)), hrest, Option.map_some]

/-- The known fields of a chain are those of its first word: later bits are numbered from 32. -/
lemma knownFields_cons {w : UInt32} (known unknown : List ℕ) (ws : List UInt32)
    (hbits : ∀ i < 32, w.toNat.testBit i = true ↔ i ∈ known ++ unknown)
    (hlt : ∀ i ∈ known ++ unknown, i < 32) (hsorted : (known ++ unknown).Pairwise (· < ·))
    (hknown : ∀ f ∈ known, (fieldLayout f).isSome) (hunknown : ∀ f ∈ unknown, fieldLayout f = none) :
    knownFields (w :: ws) = known := by
  have hfirst : (List.range 32).filter (isPresent (w :: ws)) = known ++ unknown := by
    refine List.Pairwise.eq_of_mem_iff ((List.pairwise_lt_range).sublist List.filter_sublist)
      hsorted fun i => ?_
    rw [List.mem_filter, List.mem_range]
    constructor
    · rintro ⟨hi, hp⟩
      have hword : i / 32 = 0 := by omega
      have hbit : i % 32 = i := by omega
      rw [isPresent, hword, hbit] at hp
      exact (hbits i hi).mp hp
    · intro hmem
      have hi := hlt i hmem
      have hword : i / 32 = 0 := by omega
      have hbit : i % 32 = i := by omega
      rw [isPresent, hword, hbit]
      exact ⟨hi, (hbits i hi).mpr hmem⟩
  have hlater : ∀ f ∈ unknown ++ ((List.range (32 * ws.length)).map (32 + ·)).filter
      (isPresent (w :: ws)), ¬ (fieldLayout f).isSome := by
    intro f hf
    rcases List.mem_append.mp hf with hf | hf
    · simp [hunknown f hf]
    · obtain ⟨j, -, rfl⟩ := List.mem_map.mp (List.mem_filter.mp hf).1
      simp [fieldLayout_eq_none (show 23 ≤ 32 + j by omega)]
  rw [knownFields, presentFields, List.length_cons, Nat.mul_succ, Nat.add_comm, List.range_add,
    List.filter_append, hfirst, List.append_assoc, List.takeWhile_append_of_pos hknown]
  cases hrest : unknown ++ ((List.range (32 * ws.length)).map (32 + ·)).filter
      (isPresent (w :: ws)) with
  | nil => simp
  | cons f fs =>
      rw [hrest] at hlater
      rw [List.takeWhile_cons, if_neg (hlater f (by simp)), List.append_nil]

/-! ### Packets -/

/-- A packet that starts with a version 0 header: the declared length, the present words, the
arguments from behind the words on, and whatever follows. -/
def radiotapPacket (pad : ℕ → UInt8) (len : UInt16) (words : List UInt32) (as : List Arg)
    (suffix : List UInt8) : List UInt8 :=
  0 :: pad 1 :: (Words.toLE 2 len.toNat ++
    (presentBytes words ++ (layArgs pad (4 + 4 * words.length) as ++ suffix)))

section Packet

variable {len : UInt16} {words masks : List UInt32} {as : List Arg} {suffix : List UInt8}

lemma declaredLen_radiotapPacket : declaredLen (radiotapPacket pad len words as suffix) = len.toNat := by
  have hlen : len.toNat < 256 ^ 2 := len.toNat_lt
  rw [declaredLen, radiotapPacket, List.drop_succ_cons, List.drop_succ_cons, List.drop_zero,
    List.take_left' (Words.length_toLE _ _), Words.ofLE_toLE hlen]

lemma drop_radiotapPacket : (radiotapPacket pad len words as suffix).drop 4 =
    presentBytes words ++ (layArgs pad (4 + 4 * words.length) as ++ suffix) := by
  rw [radiotapPacket, List.drop_succ_cons, List.drop_succ_cons,
    List.drop_left' (Words.length_toLE _ _)]

lemma length_radiotapPacket (pad : ℕ → UInt8) (len : UInt16) (words : List UInt32)
    (suffix : List UInt8) (has : ∀ a ∈ as, a.WellSized) :
    (radiotapPacket pad len words as suffix).length =
      argsEnd (4 + 4 * words.length) (as.map Arg.field) + suffix.length := by
  have hend := length_layArgs pad has (4 + 4 * words.length)
  simp only [radiotapPacket, List.length_cons, List.length_append, Words.length_toLE,
    length_presentBytes]
  omega

/-- The arguments that the parser reads back are those of the known fields. -/
lemma fieldArgs_radiotapPacket {bs : List Arg} (has : ∀ a ∈ as, a.WellSized) :
    fieldArgs (radiotapPacket pad len words (as ++ bs) suffix) (4 + 4 * words.length)
      (as.map Arg.field) = as := by
  let front := 0 :: pad 1 :: (Words.toLE 2 len.toNat ++ presentBytes words)
  have hfront : front.length = 4 + 4 * words.length := by
    simp only [front, List.length_cons, List.length_append, Words.length_toLE, length_presentBytes]
    omega
  have hsplit : radiotapPacket pad len words (as ++ bs) suffix =
      front ++ (layArgs pad front.length as ++
        (layArgs pad (argsEnd front.length (as.map Arg.field)) bs ++ suffix)) := by
    rw [radiotapPacket, layArgs_append, hfront]
    simp only [front, List.cons_append, List.append_assoc]
  rw [hsplit, ← hfront]
  exact fieldArgs_layArgs has front _

/-- **Reading a header back.** Of a header whose arguments end inside the declared length, the
parser reads the arguments `as` of the known fields and nothing of the others. -/
lemma parse_radiotapPacket {bs : List Arg} (hpos : 0 < words.length)
    (hchain : ∀ rest, presentChain (presentBytes words ++ rest) = some masks)
    (hmasks : masks.length = words.length) (hknown : knownFields masks = as.map Arg.field)
    (has : ∀ a ∈ as ++ bs, a.WellSized)
    (hend : argsEnd (4 + 4 * words.length) ((as ++ bs).map Arg.field) ≤ len.toNat)
    (hlen : len.toNat ≤ (radiotapPacket pad len words (as ++ bs) suffix).length) :
    radiotapMetaFromPacket (radiotapPacket pad len words (as ++ bs) suffix) =
      .ok (some ((readArgs { curOff := 4 + 4 * words.length } as).toMeta len.toNat)) := by
  have hlt : len.toNat < 2 ^ 16 := len.toNat_lt
  have hwords := le_argsEnd (4 + 4 * words.length) ((as ++ bs).map Arg.field)
  have hc : presentChain ((radiotapPacket pad len words (as ++ bs) suffix).drop 4) = some masks := by
    rw [drop_radiotapPacket, hchain]
  have hfits : PresentFits (radiotapPacket pad len words (as ++ bs) suffix) := by
    simp only [PresentFits, hc]
    omega
  have hhead : argsEnd (4 + 4 * words.length) (as.map Arg.field) ≤ len.toNat := by
    refine le_trans ?_ hend
    rw [List.map_append, argsEnd, argsEnd, List.foldl_append]
    exact le_argsEnd _ _
  have hdecode : decode (radiotapPacket pad len words (as ++ bs) suffix) =
      some ((readArgs { curOff := 4 + 4 * words.length } as).toMeta len.toNat) := by
    refine decode_eq_some_iff.mpr ⟨⟨by omega, rfl, ?_⟩, masks, hc, ?_, ?_⟩
    · rw [declaredLen_radiotapPacket]
      exact hlen
    · rw [hknown, hmasks]
      exact hhead.trans hlen
    · rw [metaOf, hknown, hmasks, declaredLen_radiotapPacket,
        fieldArgs_radiotapPacket fun a ha => has a (by simp [ha])]
  rw [radiotapMetaFromPacket_eq hfits, hdecode]

end Packet

end WfbRs
