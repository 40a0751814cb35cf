import WfbRs.Radiotap.Encoding

/-!
# Reading back a header with one present word

For every set of known fields, every assignment of argument bytes and every padding, the parser
returns the metadata that the fields stand for.  Unknown bits above the known fields end the
reading and change nothing.
-/

namespace WfbRs

open Rust

/-- A packet whose header has one present word with the fields of `S` and the unknown bits of
`U`. -/
def standardPacket (S U : Finset ℕ) (args : ℕ → List UInt8) (pad : ℕ → UInt8) (len : UInt16)
    (suffix : List UInt8) : List UInt8 :=
  radiotapPacket pad len [Words.ofBits fun i => decide (i ∈ S ∪ U)]
    (S.sort.map fun f => ⟨f, args f⟩) suffix

/-- The metadata that the arguments of `S` stand for. -/
def standardMeta (S : Finset ℕ) (args : ℕ → List UInt8) (len : ℕ) : RadiotapMeta where
  rtFlags := if rtapFlags ∈ S then (args rtapFlags).getD 0 0 else 0
  selfInjected := decide (rtapTxFlags ∈ S)
  freq := if rtapChannel ∈ S then UInt16.ofNat (Words.ofLE ((args rtapChannel).take 2)) else 0
  antenna := #v[if rtapAntenna ∈ S then (args rtapAntenna).getD 0 0 else 0xff, 0xff, 0xff, 0xff]
  rssi := #v[if rtapDbmAntsignal ∈ S then ((args rtapDbmAntsignal).getD 0 0).toInt8
    else Int8.minValue, Int8.minValue, Int8.minValue, Int8.minValue]
  noise := #v[if rtapDbmAntnoise ∈ S then ((args rtapDbmAntnoise).getD 0 0).toInt8
    else Int8.maxValue, Int8.maxValue, Int8.maxValue, Int8.maxValue]
  antCount := if rtapAntenna ∈ S then 1 else 0
  mcsIndex := if rtapMcs ∈ S ∧ (args rtapMcs).getD 0 0 &&& rtapMcsHaveMcs ≠ 0
    then (args rtapMcs).getD 2 0 &&& 0x7f else 0
  bandwidth := if rtapMcs ∈ S ∧ (args rtapMcs).getD 0 0 &&& rtapMcsHaveBw ≠ 0 ∧
    (args rtapMcs).getD 1 0 &&& 0x01 ≠ 0 then 40 else 20
  radiotapLen := len

/-- The state of the parser behind the arguments of `S`. -/
def standardState (off : ℕ) (S : Finset ℕ) (args : ℕ → List UInt8) : FieldState where
  curOff := off
  antenna := (standardMeta S args 0).antenna
  rssi := (standardMeta S args 0).rssi
  noise := (standardMeta S args 0).noise
  antIdx := if rtapAntenna ∈ S then 1 else 0
  rtFlags := (standardMeta S args 0).rtFlags
  selfInjected := (standardMeta S args 0).selfInjected
  freq := (standardMeta S args 0).freq
  mcsIndex := (standardMeta S args 0).mcsIndex
  bandwidth := (standardMeta S args 0).bandwidth

lemma toMeta_standardState (off : ℕ) (S : Finset ℕ) (args : ℕ → List UInt8) (len : ℕ) :
    (standardState off S args).toMeta len = standardMeta S args len := by
  have hcount : UInt8.ofNat (if rtapAntenna ∈ S then 1 else 0) =
      if rtapAntenna ∈ S then 1 else 0 := by split <;> rfl
  simp only [FieldState.toMeta, standardState, standardMeta, hcount]

@[simp] lemma setIfInBounds_zero {α : Type} (x y z w b : α) :
    (#v[x, y, z, w]).setIfInBounds 0 b = #v[b, y, z, w] := rfl

/-- One more field, larger than the others. -/
lemma applyField_standardState {S : Finset ℕ} {f : ℕ} (hf : ∀ g ∈ S, g < f) (off : ℕ)
    (args : ℕ → List UInt8) :
    applyField f (args f) (standardState off S args) = standardState off (insert f S) args := by
  have hnot : f ∉ S := fun h => lt_irrefl f (hf f h)
  have hmem : ∀ g, f ≠ g → (g ∈ insert f S ↔ g ∈ S) := fun g hg => by simp [Ne.symm hg]
  unfold applyField
  split
  case h_1 => simp [standardState, standardMeta, hnot]
  case h_2 =>
    -- no antenna has been read before the signal
    have hant : rtapAntenna ∉ S := fun h => absurd (hf _ h) (by decide)
    simp [standardState, standardMeta, hnot, hant]
  case h_3 =>
    have hant : rtapAntenna ∉ S := fun h => absurd (hf _ h) (by decide)
    simp [standardState, standardMeta, hnot, hant]
  case h_4 => simp [standardState, standardMeta, hnot]
  case h_5 => simp [standardState, standardMeta, hnot]
  case h_6 => simp [standardState, standardMeta, hnot]
  case h_7 => simp [standardState, standardMeta, hnot]
  case h_8 h₁₁ h₅ h₆ h₃ h₁ h₁₅ h₁₉ =>
    simp only [standardState, standardMeta, hmem _ h₁₁, hmem _ h₅, hmem _ h₆, hmem _ h₃, hmem _ h₁,
      hmem _ h₁₅, hmem _ h₁₉]

lemma sort_insert_max {S : Finset ℕ} {f : ℕ} (hf : ∀ g ∈ S, g < f) :
    (insert f S).sort = S.sort ++ [f] := by
  refine List.Pairwise.eq_of_mem_iff (r := (· < ·)) (insert f S).sortedLT_sort.pairwise ?_
    fun g => ?_
  · refine List.pairwise_append.mpr ⟨S.sortedLT_sort.pairwise, List.pairwise_singleton _ _, ?_⟩
    intro g hg h hh
    rw [List.mem_singleton.mp hh]
    exact hf g (by simpa using hg)
  · simp [or_comm]

/-- Reading the arguments of `S` in order gives the state that they stand for. -/
lemma readArgs_standard (off : ℕ) (S : Finset ℕ) (args : ℕ → List UInt8) :
    readArgs { curOff := off } (S.sort.map fun f => ⟨f, args f⟩) = standardState off S args := by
  induction S using Finset.induction_on_max with
  | empty =>
      rw [Finset.sort_empty]
      rfl
  | insert f S hf ih =>
      rw [sort_insert_max hf, List.map_append, readArgs, List.foldl_append]
      rw [readArgs] at ih
      rw [ih]
      exact applyField_standardState hf off args

/-- **Round trip.** The parser undoes the encoding of a header with one present word. -/
theorem radiotapMetaFromPacket_standardPacket {S U : Finset ℕ}
    (hS : ∀ f ∈ S, (fieldLayout f).isSome) (hU : ∀ f ∈ U, f < 31 ∧ fieldLayout f = none)
    (hSU : ∀ f ∈ S, ∀ g ∈ U, f < g) {args : ℕ → List UInt8}
    (hargs : ∀ f ∈ S, (args f).length = fieldSize f) (pad : ℕ → UInt8) {len : UInt16}
    {suffix : List UInt8} (hend : argsEnd 8 S.sort ≤ len.toNat)
    (hlen : len.toNat ≤ (standardPacket S U args pad len suffix).length) :
    radiotapMetaFromPacket (standardPacket S U args pad len suffix) =
      .ok (some (standardMeta S args len.toNat)) := by
  obtain ⟨w, hw⟩ : ∃ w, w = Words.ofBits fun i => decide (i ∈ S ∪ U) := ⟨_, rfl⟩
  obtain ⟨as, has⟩ : ∃ as : List Arg, as = (S.sort (· ≤ ·)).map fun f => ⟨f, args f⟩ :=
    ⟨_, rfl⟩
  have hbit : ∀ i < 32, w.toNat.testBit i = decide (i ∈ S ∪ U) := by
    intro i hi
    rw [hw, Words.testBit_ofBits _ hi]
  have hlt : ∀ f ∈ S ∪ U, f < 31 := by
    intro f hf
    rcases Finset.mem_union.mp hf with hf | hf
    · obtain ⟨p, hp⟩ := Option.isSome_iff_exists.mp (hS f hf)
      have := (fieldLayout_some hp).2.2.2
      omega
    · exact (hU f hf).1
  have hlast : w &&& 0x80000000 = 0 := by
    by_contra hext
    have h31 := (Words.and_high_ne_zero w).mp hext
    rw [hbit 31 (by omega), decide_eq_true_eq] at h31
    exact lt_irrefl 31 (hlt 31 h31)
  have hfields : as.map Arg.field = S.sort := by
    rw [has, List.map_map]
    exact List.map_id _
  have hknown : knownFields [w &&& 0x7fffffff] = as.map Arg.field := by
    rw [hfields]
    refine knownFields_cons S.sort U.sort [] (fun i hi => ?_) (fun i hi => ?_) ?_
      (fun f hf => hS f (by simpa using hf)) (fun f hf => (hU f (by simpa using hf)).2)
    · rw [Words.testBit_and_low, hbit i hi, Bool.and_eq_true, decide_eq_true_eq, decide_eq_true_eq]
      simp only [List.mem_append, Finset.mem_sort, ← Finset.mem_union]
      exact ⟨fun h => h.2, fun h => ⟨hlt i h, h⟩⟩
    · have hmem : i ∈ S ∪ U := by simpa [Finset.mem_union] using hi
      have := hlt i hmem
      omega
    · refine List.pairwise_append.mpr
        ⟨S.sortedLT_sort.pairwise, U.sortedLT_sort.pairwise, fun f hf g hg => ?_⟩
      exact hSU f (by simpa using hf) g (by simpa using hg)
  have hsized : ∀ a ∈ as ++ [], a.WellSized := by
    intro a ha
    rw [List.append_nil, has, List.mem_map] at ha
    obtain ⟨f, hf, rfl⟩ := ha
    exact ⟨hS f (by simpa using hf), hargs f (by simpa using hf)⟩
  have hparse : radiotapMetaFromPacket (radiotapPacket pad len [w] (as ++ []) suffix) =
      .ok (some ((readArgs { curOff := 4 + 4 * 1 } as).toMeta len.toNat)) := by
    refine parse_radiotapPacket (by simp) (presentChain_presentBytes [] (by simp) hlast) rfl
      hknown hsized ?_ ?_
    · rw [List.append_nil, hfields]
      exact hend
    · rw [List.append_nil, hw, has]
      exact hlen
  rw [List.append_nil, hw, has, readArgs_standard, toMeta_standardState] at hparse
  exact hparse

theorem parse_flags_channel_mcs :
    radiotapMetaFromPacket (standardPacket {rtapFlags, rtapChannel, rtapMcs} {29}
        (fun f => List.replicate (fieldSize f) 1) (fun _ => 0) 17 [0xaa]) =
      .ok (some (standardMeta {rtapFlags, rtapChannel, rtapMcs}
        (fun f => List.replicate (fieldSize f) 1) 17)) := by
  have hsort : ({rtapFlags, rtapChannel, rtapMcs} : Finset ℕ).sort = [1, 3, 19] :=
    List.Pairwise.eq_of_mem_iff (Finset.sortedLT_sort _).pairwise (by decide) (by simp)
  refine radiotapMetaFromPacket_standardPacket (by decide) (by decide) (by decide) (by simp) _ ?_ ?_
  · rw [hsort]
    decide
  · rw [standardPacket, hsort]
    decide +kernel

end WfbRs
