import WfbRs.Radiotap.Encoding

/-!
# Headers with several present words

A receiver with several antennas reports them in a chain of present words: every word but the
last one announces another word and restarts the numbering of the fields.  `DecodesAntennas`
is what a parser should make of such a chain.  The parser here numbers the bits through instead
of restarting, so that it never reads a word behind the first: its result is right exactly when
those words have no antenna.
-/

namespace WfbRs

open Rust

/-! ### The meaning of a chain -/

/-- The first byte of each ANTENNA argument, in order. -/
def antennas (as : List Arg) : List UInt8 :=
  (as.filter fun a => a.field = rtapAntenna).map fun a => a.bytes.getD 0 0

/-- The arguments read while exactly `j` antennas had been seen. -/
def seenAt : ℕ → List Arg → List Arg
  | _, [] => []
  | 0, a :: as => if a.field = rtapAntenna then [] else a :: seenAt 0 as
  | j + 1, a :: as => if a.field = rtapAntenna then seenAt j as else seenAt (j + 1) as

/-- The last argument of a field read while exactly `j` antennas had been seen. -/
def slotValue (field : ℕ) (init : Int8) (j : ℕ) (as : List Arg) : Int8 :=
  ((seenAt j as).filter fun a => a.field = field).getLast?.elim init fun a =>
    (a.bytes.getD 0 0).toInt8

/-- The antenna data of a list of arguments, in the four slots of the metadata. -/
structure DecodesAntennas (as : List Arg) (m : RadiotapMeta) : Prop where
  count : m.antCount = UInt8.ofNat (min 4 (antennas as).length)
  antenna : ∀ (j : ℕ) (hj : j < 4), j < (antennas as).length →
    m.antenna[j] = (antennas as).getD j 0xff
  rssi : ∀ (j : ℕ) (hj : j < 4), j < (antennas as).length →
    m.rssi[j] = slotValue rtapDbmAntsignal Int8.minValue j as
  noise : ∀ (j : ℕ) (hj : j < 4), j < (antennas as).length →
    m.noise[j] = slotValue rtapDbmAntnoise Int8.maxValue j as
  unused : ∀ (j : ℕ) (hj : j < 4), (antennas as).length ≤ j → m.antenna[j] = 0xff

lemma antennas_append (as bs : List Arg) : antennas (as ++ bs) = antennas as ++ antennas bs := by
  simp [antennas]

lemma antennas_eq_nil {as : List Arg} : antennas as = [] ↔ ∀ a ∈ as, a.field ≠ rtapAntenna := by
  simp [antennas, List.filter_eq_nil_iff]

lemma length_antennas (as : List Arg) :
    (antennas as).length = (as.map Arg.field).count rtapAntenna := by
  rw [antennas, List.length_map, ← List.countP_eq_length_filter, List.count, List.countP_map]
  rfl

lemma antennas_cons_of_eq {a : Arg} (ha : a.field = rtapAntenna) (as : List Arg) :
    antennas (a :: as) = a.bytes.getD 0 0 :: antennas as := by simp [antennas, ha]

lemma antennas_cons_of_ne {a : Arg} (ha : a.field ≠ rtapAntenna) (as : List Arg) :
    antennas (a :: as) = antennas as := by simp [antennas, ha]

/-- One more argument is seen with all the antennas before it. -/
lemma seenAt_concat (j : ℕ) (as : List Arg) (a : Arg) :
    seenAt j (as ++ [a]) =
      if j = (antennas as).length ∧ a.field ≠ rtapAntenna then seenAt j as ++ [a]
      else seenAt j as := by
  induction as generalizing j with
  | nil =>
      cases j with
      | zero => by_cases ha : a.field = rtapAntenna <;> simp [seenAt, antennas, ha]
      | succ j => by_cases ha : a.field = rtapAntenna <;> simp [seenAt, antennas, ha]
  | cons b as ih =>
      rw [List.cons_append]
      by_cases hb : b.field = rtapAntenna
      · cases j with
        | zero => simp [seenAt, antennas_cons_of_eq hb, hb]
        | succ j => simpa [seenAt, antennas_cons_of_eq hb, hb] using ih j
      · cases j with
        | zero =>
            rw [seenAt, if_neg hb, ih 0, antennas_cons_of_ne hb, seenAt, if_neg hb]
            split <;> rfl
        | succ j => simpa [seenAt, antennas_cons_of_ne hb, hb] using ih (j + 1)

lemma slotValue_concat {field : ℕ} (hfield : field ≠ rtapAntenna) (init : Int8) (j : ℕ)
    (as : List Arg) (a : Arg) :
    slotValue field init j (as ++ [a]) =
      if j = (antennas as).length ∧ a.field = field then (a.bytes.getD 0 0).toInt8
      else slotValue field init j as := by
  rw [slotValue, seenAt_concat]
  by_cases hj : j = (antennas as).length
  · by_cases hf : a.field = field
    · have hant : a.field ≠ rtapAntenna := hf ▸ hfield
      rw [if_pos ⟨hj, hant⟩, if_pos ⟨hj, hf⟩, List.filter_append]
      simp [hf]
    · rw [if_neg (fun h : j = (antennas as).length ∧ a.field = field => hf h.2), slotValue]
      split
      · rw [List.filter_append]
        simp [hf]
      · rfl
  · rw [if_neg (fun h => hj h.1), if_neg (fun h => hj h.1)]
    rfl

/-- Antennas seen later do not change what was seen with fewer of them. -/
lemma seenAt_append_of_lt {j : ℕ} {as : List Arg} (hj : j < (antennas as).length)
    (bs : List Arg) : seenAt j (as ++ bs) = seenAt j as := by
  induction as generalizing j with
  | nil => simp [antennas] at hj
  | cons a as ih =>
      by_cases ha : a.field = rtapAntenna
      · cases j with
        | zero => simp [seenAt, ha]
        | succ j =>
            have hj' : j < (antennas as).length := by simpa [antennas_cons_of_eq ha] using hj
            simp [seenAt, ha, ih hj']
      · have hj' : j < (antennas as).length := by simpa [antennas_cons_of_ne ha] using hj
        cases j with
        | zero => simp [seenAt, ha, ih hj']
        | succ j => simp [seenAt, ha, ih hj']

/-! ### What the parser keeps of a list of arguments -/

/-- The antenna data of the parser's state, slot by slot. -/
structure HoldsAntennas (as : List Arg) (st : FieldState) : Prop where
  antIdx : st.antIdx = (antennas as).length
  antenna : ∀ (j : ℕ) (hj : j < 4), st.antenna[j] = (antennas as).getD j 0xff
  rssi : ∀ (j : ℕ) (hj : j < 4), st.rssi[j] = slotValue rtapDbmAntsignal Int8.minValue j as
  noise : ∀ (j : ℕ) (hj : j < 4), st.noise[j] = slotValue rtapDbmAntnoise Int8.maxValue j as

lemma applyField_antenna (f : ℕ) (b : List UInt8) (st : FieldState) :
    (applyField f b st).antenna =
      if f = rtapAntenna then st.antenna.setIfInBounds st.antIdx (b.getD 0 0) else st.antenna := by
  unfold applyField
  split <;> simp_all

lemma applyField_rssi (f : ℕ) (b : List UInt8) (st : FieldState) :
    (applyField f b st).rssi =
      if f = rtapDbmAntsignal then st.rssi.setIfInBounds st.antIdx (b.getD 0 0).toInt8
      else st.rssi := by
  unfold applyField
  split <;> simp_all

lemma applyField_noise (f : ℕ) (b : List UInt8) (st : FieldState) :
    (applyField f b st).noise =
      if f = rtapDbmAntnoise then st.noise.setIfInBounds st.antIdx (b.getD 0 0).toInt8
      else st.noise := by
  unfold applyField
  split <;> simp_all

lemma HoldsAntennas.concat {as : List Arg} {st : FieldState} (h : HoldsAntennas as st) (a : Arg) :
    HoldsAntennas (as ++ [a]) (applyField a.field a.bytes st) where
  antIdx := by
    rw [applyField_antIdx, h.antIdx, antennas_append]
    by_cases ha : a.field = rtapAntenna
    · simp [antennas, ha]
    · simp [antennas, ha]
  antenna j hj := by
    have hold := h.antenna j hj
    simp only [applyField_antenna, h.antIdx, antennas_append]
    by_cases ha : a.field = rtapAntenna
    · have hone : antennas [a] = [a.bytes.getD 0 0] := antennas_cons_of_eq ha []
      simp only [hone, ha, if_true, Vector.getElem_setIfInBounds, hold]
      rcases Nat.lt_trichotomy j (antennas as).length with hlt | heq | hgt
      · rw [if_neg (by omega), List.getD_append _ _ _ _ hlt]
      · rw [if_pos heq.symm, List.getD_append_right _ _ _ _ heq.ge, heq, Nat.sub_self]
        rfl
      · rw [if_neg (by omega), List.getD_eq_default _ _ hgt.le,
          List.getD_eq_default _ _ (by simpa using hgt)]
    · have hnone : antennas [a] = [] := antennas_cons_of_ne ha []
      simpa [ha, hnone] using hold
  rssi j hj := by
    have hold := h.rssi j hj
    have hslot := slotValue_concat (show rtapDbmAntsignal ≠ rtapAntenna by decide)
    simp only [applyField_rssi, h.antIdx, hslot]
    by_cases ha : a.field = rtapDbmAntsignal
    · simp only [ha, if_true, Vector.getElem_setIfInBounds, and_true, hold, eq_comm]
    · simp only [ha, if_false, and_false, hold]
  noise j hj := by
    have hold := h.noise j hj
    have hslot := slotValue_concat (show rtapDbmAntnoise ≠ rtapAntenna by decide)
    simp only [applyField_noise, h.antIdx, hslot]
    by_cases ha : a.field = rtapDbmAntnoise
    · simp only [ha, if_true, Vector.getElem_setIfInBounds, and_true, hold, eq_comm]
    · simp only [ha, if_false, and_false, hold]

/-- A parser without a limit on the antennas would hold the data of any list of arguments. -/
lemma readArgs_antennas (off : ℕ) (as : List Arg) :
    HoldsAntennas as (readArgs { curOff := off } as) := by
  induction as using List.reverseRecOn with
  | nil =>
      refine ⟨rfl, fun j hj => ?_, fun j hj => ?_, fun j hj => ?_⟩
      · simp [readArgs, antennas]
      · simp [readArgs, slotValue, seenAt]
      · simp [readArgs, slotValue, seenAt]
  | append_singleton as a ih =>
      rw [readArgs] at ih ⊢
      rw [List.foldl_append]
      exact ih.concat a

/-! ### Chains of present words -/

/-- The present word of some arguments.  A word that is not the last one announces the next with
bit 31 and restarts the numbering of the fields with bit 29. -/
def presentWord (as : List Arg) (more : Bool) : UInt32 :=
  Words.ofBits fun i => decide (i ∈ as.map Arg.field) || (more && (i == 29 || i == 31))

/-- The present words of a list of words, each given by its arguments. -/
def presentWords : List (List Arg) → List UInt32
  | [] => []
  | [as] => [presentWord as false]
  | as :: bs :: rest => presentWord as true :: presentWords (bs :: rest)

/-- The arguments of one word: of known fields, in increasing order. -/
structure WellFormedWord (as : List Arg) : Prop where
  sized : ∀ a ∈ as, a.WellSized
  sorted : (as.map Arg.field).Pairwise (· < ·)

/-- A packet whose header has these present words; the arguments are laid out word after word. -/
def chainPacket (pad : ℕ → UInt8) (len : UInt16) (words : List (List Arg)) (suffix : List UInt8) :
    List UInt8 :=
  radiotapPacket pad len (presentWords words) words.flatten suffix

lemma WellFormedWord.field_lt {as : List Arg} (h : WellFormedWord as) {i : ℕ}
    (hi : i ∈ as.map Arg.field) : i < 23 ∧ (fieldLayout i).isSome := by
  obtain ⟨a, ha, rfl⟩ := List.mem_map.mp hi
  have hsome := (h.sized a ha).1
  obtain ⟨p, hp⟩ := Option.isSome_iff_exists.mp hsome
  exact ⟨(fieldLayout_some hp).2.2.2, hsome⟩

/-- A word has at most one antenna. -/
lemma WellFormedWord.length_antennas_le {as : List Arg} (h : WellFormedWord as) :
    (antennas as).length ≤ 1 := by
  rw [length_antennas]
  exact List.nodup_iff_count_le_one.mp (h.sorted.imp fun hab => Nat.ne_of_lt hab) _

lemma testBit_presentWord {as : List Arg} (more : Bool) {i : ℕ} (hi : i < 32) :
    (presentWord as more).toNat.testBit i =
      (decide (i ∈ as.map Arg.field) || (more && (i == 29 || i == 31))) :=
  Words.testBit_ofBits _ hi

/-- Bit 31 announces another word. -/
lemma presentWord_ext {as : List Arg} (h : WellFormedWord as) (more : Bool) :
    presentWord as more &&& 0x80000000 ≠ 0 ↔ more = true := by
  have hnot : 31 ∉ as.map Arg.field := fun hi => by
    have := (h.field_lt hi).1
    omega
  rw [Words.and_high_ne_zero, testBit_presentWord more (by omega)]
  simp [hnot]

lemma length_presentWords (words : List (List Arg)) : (presentWords words).length = words.length := by
  induction words with
  | nil => rfl
  | cons as rest ih =>
      cases rest with
      | nil => rfl
      | cons bs rest => simpa [presentWords] using ih

/-- The present words form a chain. -/
lemma presentWords_chain {as : List Arg} {rest : List (List Arg)}
    (hw : ∀ v ∈ as :: rest, WellFormedWord v) (bytes : List UInt8) :
    presentChain (presentBytes (presentWords (as :: rest)) ++ bytes) =
      some ((presentWords (as :: rest)).map (· &&& 0x7fffffff)) := by
  obtain ⟨ws, w, heq, hws, hlast⟩ : ∃ ws w, presentWords (as :: rest) = ws ++ [w] ∧
      (∀ v ∈ ws, v &&& 0x80000000 ≠ 0) ∧ w &&& 0x80000000 = 0 := by
    induction rest generalizing as with
    | nil =>
        have hext := presentWord_ext (hw as (by simp)) false
        exact ⟨[], presentWord as false, rfl, by simp, by simpa using hext⟩
    | cons bs rest ih =>
        obtain ⟨ws, w, heq, hws, hlast⟩ := ih fun v (hv : v ∈ bs :: rest) => hw v (List.mem_cons_of_mem _ hv)
        have hext := (presentWord_ext (hw as (by simp)) true).mpr rfl
        refine ⟨presentWord as true :: ws, w, ?_, ?_, hlast⟩
        · rw [presentWords, heq, List.cons_append]
        · rintro v (_ | ⟨_, hv⟩)
          · exact hext
          · exact hws v hv
  rw [heq]
  exact presentChain_presentBytes ws hws hlast bytes

/-- The known fields of the chain are those of its first word. -/
lemma knownFields_presentWords {as : List Arg} {rest : List (List Arg)}
    (h : WellFormedWord as) :
    knownFields ((presentWords (as :: rest)).map (· &&& 0x7fffffff)) = as.map Arg.field := by
  obtain ⟨more, ws, heq⟩ : ∃ more ws, presentWords (as :: rest) = presentWord as more :: ws := by
    cases rest with
    | nil => exact ⟨false, [], rfl⟩
    | cons bs rest => exact ⟨true, presentWords (bs :: rest), rfl⟩
  have hunknown : ∀ i, i ∈ (if more then [29] else []) ↔ more = true ∧ i = 29 := by
    cases more <;> simp
  rw [heq, List.map_cons]
  refine knownFields_cons _ (if more then [29] else []) _ (fun i hi => ?_) (fun i hi => ?_) ?_
    (fun f hf => (h.field_lt hf).2) (fun f hf => ?_)
  · rw [Words.testBit_and_low, testBit_presentWord more hi, List.mem_append, hunknown]
    simp only [Bool.and_eq_true, Bool.or_eq_true, decide_eq_true_eq, beq_iff_eq]
    constructor
    · rintro ⟨hlt, hmem | ⟨hmore, rfl | rfl⟩⟩
      · exact .inl hmem
      · exact .inr ⟨hmore, rfl⟩
      · exact absurd hlt (lt_irrefl 31)
    · rintro (hmem | ⟨hmore, rfl⟩)
      · exact ⟨by have := (h.field_lt hmem).1; omega, .inl hmem⟩
      · exact ⟨by omega, .inr ⟨hmore, .inl rfl⟩⟩
  · rcases List.mem_append.mp hi with hi | hi
    · have := (h.field_lt hi).1
      omega
    · have := ((hunknown i).mp hi).2
      omega
  · refine List.pairwise_append.mpr ⟨h.sorted, by cases more <;> simp, fun f hf g hg => ?_⟩
    have hlt := (h.field_lt hf).1
    have heq := ((hunknown g).mp hg).2
    omega
  · rw [((hunknown f).mp hf).2]
    rfl

/-- **Several antennas.** Of a well-formed chain of present words the parser returns the antenna
data exactly when no word behind the first has an antenna. -/
theorem chain_decodesAntennas_iff {w : List Arg} {ws : List (List Arg)}
    (hw : ∀ v ∈ w :: ws, WellFormedWord v) (pad : ℕ → UInt8) (suffix : List UInt8) {len : UInt16}
    (hlen : len.toNat =
      argsEnd (4 + 4 * (w :: ws).length) ((w :: ws).flatten.map Arg.field)) :
    ∃ m, radiotapMetaFromPacket (chainPacket pad len (w :: ws) suffix) = .ok (some m) ∧
      (DecodesAntennas (w :: ws).flatten m ↔ ∀ v ∈ ws, ∀ a ∈ v, a.field ≠ rtapAntenna) := by
  have hword := hw w (by simp)
  have hsized : ∀ a ∈ w ++ ws.flatten, a.WellSized := by
    intro a ha
    obtain ⟨v, hv, hav⟩ := List.mem_flatten.mp (show a ∈ (w :: ws).flatten from ha)
    exact (hw v hv).sized a hav
  have hcount : (presentWords (w :: ws)).length = (w :: ws).length := length_presentWords _
  have hparse : radiotapMetaFromPacket (chainPacket pad len (w :: ws) suffix) = .ok (some
      ((readArgs { curOff := 4 + 4 * (presentWords (w :: ws)).length } w).toMeta len.toNat)) := by
    refine parse_radiotapPacket (by rw [hcount]; simp) (presentWords_chain hw) (by simp)
      (knownFields_presentWords hword) hsized ?_ ?_
    · rw [hcount, ← List.flatten_cons, ← hlen]
    · have hlong := length_radiotapPacket pad len (presentWords (w :: ws)) suffix hsized
      rw [hcount, ← List.flatten_cons, ← hlen] at hlong
      rw [← List.flatten_cons, hlong]
      exact Nat.le_add_right _ _
  have hflat : antennas (w :: ws).flatten = antennas w ++ antennas ws.flatten := by
    rw [List.flatten_cons, antennas_append]
  have hholds := readArgs_antennas (4 + 4 * (presentWords (w :: ws)).length) w
  have hone := hword.length_antennas_le
  refine ⟨_, hparse, ?_⟩
  constructor
  · intro hd
    -- at most one antenna was counted, so there is none behind the first word
    have hcnt : UInt8.ofNat (antennas w).length =
        UInt8.ofNat (min 4 (antennas (w :: ws).flatten).length) := by
      rw [← hd.count, ← hholds.antIdx]
      rfl
    have hnat := congrArg UInt8.toNat hcnt
    rw [UInt8.toNat_ofNat', UInt8.toNat_ofNat', hflat, List.length_append] at hnat
    have hnil : antennas ws.flatten = [] := List.length_eq_zero_iff.mp (by omega)
    intro v hv a ha
    exact antennas_eq_nil.mp hnil a (List.mem_flatten.mpr ⟨v, hv, ha⟩)
  · intro hnone
    have hnil : antennas ws.flatten = [] := by
      refine antennas_eq_nil.mpr fun a ha => ?_
      obtain ⟨v, hv, hav⟩ := List.mem_flatten.mp ha
      exact hnone v hv a hav
    have heq : antennas (w :: ws).flatten = antennas w := by rw [hflat, hnil, List.append_nil]
    have hslot : ∀ field init j, j < (antennas w).length →
        slotValue field init j (w :: ws).flatten = slotValue field init j w := by
      intro field init j hj
      rw [slotValue, slotValue, List.flatten_cons, seenAt_append_of_lt hj]
    refine ⟨?_, fun j hj hlt => ?_, fun j hj hlt => ?_, fun j hj hlt => ?_, fun j hj hle => ?_⟩
    · rw [heq, min_eq_right (by omega), ← hholds.antIdx]
      rfl
    · rw [heq]
      exact hholds.antenna j hj
    · rw [hslot _ _ _ (heq ▸ hlt)]
      exact hholds.rssi j hj
    · rw [hslot _ _ _ (heq ▸ hlt)]
      exact hholds.noise j hj
    · have hdefault := hholds.antenna j hj
      rw [List.getD_eq_default _ _ (heq ▸ hle)] at hdefault
      exact hdefault

lemma wellFormedWord_singleton {f : ℕ} {b : UInt8} (hf : fieldLayout f = some (1, 1)) :
    WellFormedWord [⟨f, [b]⟩] where
  sized := by simp [Arg.WellSized, hf, fieldSize]
  sorted := by simp

/-- An antenna in the first word and a signal in the second. -/
theorem chain_antenna_signal : ∃ m,
    radiotapMetaFromPacket (chainPacket (fun _ => 0) 14
        [[⟨rtapAntenna, [1]⟩], [⟨rtapDbmAntsignal, [0xd0]⟩]] []) = .ok (some m) ∧
      DecodesAntennas [⟨rtapAntenna, [1]⟩, ⟨rtapDbmAntsignal, [0xd0]⟩] m := by
  have hw : ∀ v ∈ [[⟨rtapAntenna, [1]⟩], [⟨rtapDbmAntsignal, [0xd0]⟩]], WellFormedWord v := by
    simp [wellFormedWord_singleton (f := rtapAntenna) rfl,
      wellFormedWord_singleton (f := rtapDbmAntsignal) rfl]
  obtain ⟨m, hm, hiff⟩ := chain_decodesAntennas_iff hw (fun _ => 0) []
    (show (14 : UInt16).toNat = _ by decide)
  exact ⟨m, hm, hiff.mpr (by decide)⟩

/-- Of two words with an antenna each, only the first is read. -/
theorem not_chain_decodesAntennas : ¬ ∀ (w : List Arg) (ws : List (List Arg)),
    (∀ v ∈ w :: ws, WellFormedWord v) → ∀ (pad : ℕ → UInt8) (suffix : List UInt8) (len : UInt16),
      len.toNat = argsEnd (4 + 4 * (w :: ws).length) ((w :: ws).flatten.map Arg.field) →
        ∃ m, radiotapMetaFromPacket (chainPacket pad len (w :: ws) suffix) = .ok (some m) ∧
          DecodesAntennas (w :: ws).flatten m := by
  intro h
  obtain ⟨m, hm, hd⟩ := h [⟨rtapAntenna, [1]⟩] [[⟨rtapAntenna, [2]⟩]]
    (by simp [wellFormedWord_singleton (f := rtapAntenna) rfl]) (fun _ => 0) [] 14 (by decide)
  have hone : (radiotapMetaFromPacket (chainPacket (fun _ => 0) 14
      [[⟨rtapAntenna, [1]⟩], [⟨rtapAntenna, [2]⟩]] [])).map (·.map RadiotapMeta.antCount) =
      .ok (some 1) := by decide +kernel
  rw [hm] at hone
  have hcount : m.antCount = 1 := by simpa [Except.map] using hone
  have htwo := hd.count
  rw [hcount] at htwo
  exact absurd htwo (by decide)

end WfbRs
