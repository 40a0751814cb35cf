import WfbRs.Radiotap.Decode

/-!
# Which bytes the parser looks at

A radiotap header declares its length, and the bytes behind it belong to the frame, which a
remote sender chooses.  The parser checks its reads against the end of the packet only.  So
its result depends on the header alone exactly when the header is of another version or holds
all that it announces; `confined_iff` is this, over all packets with the same header.
-/

namespace WfbRs

open Rust

/-- The bytes up to the declared length, and at least the four that declare it. -/
def declaredHeader (pkt : List UInt8) : List UInt8 := pkt.take (max (declaredLen pkt) 4)

/-- The present words and the known fields end inside the declared header. -/
def HoldsItsFields (pkt : List UInt8) : Prop :=
  ∃ ws, presentChain ((declaredHeader pkt).drop 4) = some ws ∧
    argsEnd (4 + 4 * ws.length) (knownFields ws) ≤ (declaredHeader pkt).length

/-! ### Longer packets -/

variable {h t : List UInt8}

lemma declaredLen_append (hlen : 4 ≤ h.length) : declaredLen (h ++ t) = declaredLen h := by
  rw [declaredLen, declaredLen, List.drop_append_of_le_length (by omega),
    List.take_append_of_le_length (by rw [List.length_drop]; omega)]

/-- Fields that end inside the front of a packet are read there. -/
lemma fieldArgs_append {off : ℕ} {fs : List ℕ} (hend : argsEnd off fs ≤ h.length) :
    fieldArgs (h ++ t) off fs = fieldArgs h off fs := by
  induction fs generalizing off with
  | nil => rfl
  | cons f fs ih =>
      have hle := le_argsEnd (fieldStart off f + fieldSize f) fs
      rw [argsEnd_cons] at hend
      rw [fieldArgs, fieldArgs, ih hend, List.drop_append_of_le_length (by omega),
        List.take_append_of_le_length (by rw [List.length_drop]; omega)]

lemma metaOf_append {ws : List UInt32} (hlen : 4 ≤ h.length)
    (hend : argsEnd (4 + 4 * ws.length) (knownFields ws) ≤ h.length) :
    metaOf (h ++ t) ws = metaOf h ws := by
  rw [metaOf, metaOf, declaredLen_append hlen, fieldArgs_append hend]

/-- Four zero bytes end any chain of present words. -/
lemma presentChain_zeros (l : List UInt8) :
    ∃ ws, presentChain (l ++ List.replicate 4 0) = some ws := by
  induction l using presentChain.induct with
  | case1 b₀ b₁ b₂ b₃ rest hw ih =>
      obtain ⟨ws, hws⟩ := ih
      refine ⟨(leWord b₀ b₁ b₂ b₃ &&& 0x7fffffff) :: ws, ?_⟩
      simp only [List.cons_append]
      rw [presentChain, if_pos hw, hws, Option.map_some]
  | case2 b₀ b₁ b₂ b₃ rest hw =>
      refine ⟨[leWord b₀ b₁ b₂ b₃ &&& 0x7fffffff], ?_⟩
      simp only [List.cons_append]
      rw [presentChain, if_neg hw]
  | case3 l hl =>
      -- the last word is completed by a zero byte, so its top bit is clear
      have hclear : ∀ b₀ b₁ b₂ : UInt8, ¬ leWord b₀ b₁ b₂ 0 &&& 0x80000000 ≠ 0 := by
        intro b₀ b₁ b₂ hext
        have hbit := (Words.and_high_ne_zero _).mp hext
        have hlt := Words.ofLE_lt [b₀, b₁, b₂]
        have hword : (leWord b₀ b₁ b₂ 0).toNat < 2 ^ 24 := by
          rw [leWord, UInt32.toNat_ofNat']
          simp only [Words.ofLE_cons, Words.ofLE_nil, List.length_cons, List.length_nil] at hlt ⊢
          have hzero : (0 : UInt8).toNat = 0 := rfl
          omega
        rw [Nat.testBit_lt_two_pow (lt_trans hword (by norm_num))] at hbit
        exact absurd hbit (by simp)
      rcases l with _ | ⟨a, _ | ⟨b, _ | ⟨c, _ | ⟨d, rest⟩⟩⟩⟩
      · exact ⟨_, by rw [List.nil_append]; exact if_neg (hclear 0 0 0)⟩
      · exact ⟨_, if_neg (hclear a 0 0)⟩
      · exact ⟨_, if_neg (hclear a b 0)⟩
      · exact ⟨_, if_neg (hclear a b c)⟩
      · exact absurd rfl (hl a b c d rest)

/-! ### The two kinds of packets -/

lemma parse_of_version {pkt : List UInt8} (hlen : 4 ≤ pkt.length) (hv : pkt.head? ≠ some 0) :
    radiotapMetaFromPacket pkt = .ok none := by
  obtain ⟨v, rest, rfl⟩ : ∃ v rest, pkt = v :: rest := List.exists_cons_of_length_pos (by omega)
  have hv0 : v ≠ 0 := fun h => hv (by rw [h]; rfl)
  by_cases h8 : (v :: rest).length < 8
  · rw [radiotapMetaFromPacket, if_pos h8]
    rfl
  · rw [radiotapMetaFromPacket, if_neg h8, index_ok (by omega), ok_bind, List.getElem_cons_zero,
      if_pos hv0]
    rfl

/-- A header that holds its fields gives the same result whatever follows. -/
lemma parse_of_header {ws : List UInt32} (hsmall : h.length < 2 ^ 17)
    (hlen : declaredLen h ≤ h.length) (hhead : h.head? = some 0)
    (hc : presentChain (h.drop 4) = some ws)
    (hend : argsEnd (4 + 4 * ws.length) (knownFields ws) ≤ h.length) :
    radiotapMetaFromPacket (h ++ t) = .ok (some (metaOf h ws)) := by
  obtain ⟨hpos, hle⟩ := presentChain_length hc
  rw [List.length_drop] at hle
  have h4 : 4 ≤ h.length := by omega
  have hc' : presentChain ((h ++ t).drop 4) = some ws := by
    rw [List.drop_append_of_le_length h4]
    exact presentChain_append hc
  have hfits : PresentFits (h ++ t) := by
    simp only [PresentFits, hc']
    omega
  have hdecode : decode (h ++ t) = some (metaOf h ws) := by
    refine decode_eq_some_iff.mpr ⟨⟨?_, ?_, ?_⟩, ws, hc', ?_, (metaOf_append h4 hend).symm⟩
    · rw [List.length_append]
      omega
    · rw [List.head?_append, hhead]
      rfl
    · rw [declaredLen_append h4, List.length_append]
      omega
    · rw [List.length_append]
      omega
  rw [radiotapMetaFromPacket_eq hfits, hdecode]

/-- A header that does not hold its fields is rejected alone and accepted with zeros behind it. -/
lemma parse_of_not_holds (hsmall : h.length < 2 ^ 17) (h4 : 4 ≤ h.length)
    (hlen : declaredLen h ≤ h.length) (hhead : h.head? = some 0)
    (hno : ¬ ∃ ws, presentChain (h.drop 4) = some ws ∧
      argsEnd (4 + 4 * ws.length) (knownFields ws) ≤ h.length) :
    radiotapMetaFromPacket h = .ok none ∧
      ∃ m, radiotapMetaFromPacket (h ++ List.replicate 500 0) = .ok (some m) := by
  constructor
  · rw [radiotapMetaFromPacket_eq (presentFits_of_length (by omega))]
    cases hd : decode h with
    | none => rfl
    | some m =>
        obtain ⟨-, ws, hc, hend, -⟩ := decode_eq_some_iff.mp hd
        exact absurd ⟨ws, hc, hend⟩ hno
  · obtain ⟨ws, hws⟩ := presentChain_zeros (h.drop 4)
    have hle := (presentChain_length hws).2
    have hc : presentChain ((h ++ List.replicate 500 0).drop 4) = some ws := by
      have hsplit : (List.replicate 500 0 : List UInt8) =
          List.replicate 4 0 ++ List.replicate 496 0 := by rw [List.replicate_append_replicate]
      rw [List.drop_append_of_le_length h4, hsplit, ← List.append_assoc]
      exact presentChain_append hws
    have hend := argsEnd_le (4 + 4 * ws.length) (knownFields ws)
    have hfew := length_knownFields_le ws
    simp only [List.length_append, List.length_drop, List.length_replicate] at hle
    refine ⟨metaOf (h ++ List.replicate 500 0) ws, ?_⟩
    rw [radiotapMetaFromPacket_eq (presentFits_of_length
      (by simp only [List.length_append, List.length_replicate]; omega))]
    refine congrArg Except.ok (decode_eq_some_iff.mpr ⟨⟨?_, ?_, ?_⟩, ws, hc, ?_, rfl⟩)
    · simp only [List.length_append, List.length_replicate]
      omega
    · rw [List.head?_append, hhead]
      rfl
    · rw [declaredLen_append h4]
      simp only [List.length_append, List.length_replicate]
      omega
    · simp only [List.length_append, List.length_replicate]
      omega

/-- **Confinement.** All packets that share the declared header of `p` give the result of `p` if
and only if `p` is of another version or its header holds the fields that it announces. -/
theorem confined_iff {p : List UInt8} (h4 : 4 ≤ p.length) (hlen : declaredLen p ≤ p.length) :
    (∀ q : List UInt8, max (declaredLen p) 4 ≤ q.length →
      q.take (max (declaredLen p) 4) = p.take (max (declaredLen p) 4) →
        radiotapMetaFromPacket q = radiotapMetaFromPacket p) ↔
      p.head? ≠ some 0 ∨ HoldsItsFields p := by
  have hbound := declaredLen_lt p
  obtain ⟨n, hn⟩ : ∃ n, n = max (declaredLen p) 4 := ⟨_, rfl⟩
  obtain ⟨h, hh⟩ : ∃ h, h = p.take n := ⟨_, rfl⟩
  have hhlen : h.length = n := by
    rw [hh, List.length_take]
    omega
  have hp : p = h ++ p.drop n := by rw [hh, List.take_append_drop]
  have hdecl : declaredLen h = declaredLen p := by
    conv_rhs => rw [hp]
    exact (declaredLen_append (by omega)).symm
  have hhead : p.head? = h.head? := by
    obtain ⟨b, rest, hb⟩ : ∃ b rest, h = b :: rest := List.exists_cons_of_length_pos (by omega)
    rw [hp, hb]
    rfl
  have hholds : HoldsItsFields p ↔ ∃ ws, presentChain (h.drop 4) = some ws ∧
      argsEnd (4 + 4 * ws.length) (knownFields ws) ≤ h.length := by
    rw [HoldsItsFields, declaredHeader, ← hn, ← hh]
  rw [← hn, ← hh, hholds]
  constructor
  · intro hall
    by_contra hno
    obtain ⟨hversion, hnot⟩ := not_or.mp hno
    rw [hhead, not_not] at hversion
    obtain ⟨hnone, m, hsome⟩ :=
      parse_of_not_holds (by omega) (by omega) (by omega) hversion hnot
    -- the header alone and the header with zeros behind it give different results
    have h₁ := hall h hhlen.ge (by rw [← hhlen, List.take_length])
    have h₂ := hall (h ++ List.replicate 500 0)
      (by rw [List.length_append]; omega) (by rw [← hhlen, List.take_left' rfl])
    rw [← h₁, hnone, hsome] at h₂
    exact absurd h₂ (by simp)
  · rintro hor q hq hagree
    have hqs : q = h ++ q.drop n := by rw [← hagree, List.take_append_drop]
    by_cases hversion : h.head? = some 0
    · obtain ⟨ws, hc, hend⟩ := hor.resolve_left (by rw [hhead]; exact not_not_intro hversion)
      rw [hqs, hp]
      rw [parse_of_header (by omega) (by omega) hversion hc hend,
        parse_of_header (by omega) (by omega) hversion hc hend]
    · have hqhead : q.head? = h.head? := by
        obtain ⟨b, rest, hb⟩ : ∃ b rest, h = b :: rest := List.exists_cons_of_length_pos (by omega)
        rw [hqs, hb]
        rfl
      rw [parse_of_version (by omega) (by rw [hqhead]; exact hversion),
        parse_of_version h4 (by rw [hhead]; exact hversion)]

/-- A header of nine bytes with FLAGS in the ninth: the frame behind it does not matter. -/
theorem confined_flags : radiotapMetaFromPacket [0, 0, 9, 0, 2, 0, 0, 0, 0x10, 0x40, 0x50] =
    radiotapMetaFromPacket [0, 0, 9, 0, 2, 0, 0, 0, 0x10] :=
  (confined_iff (p := [0, 0, 9, 0, 2, 0, 0, 0, 0x10]) (by decide) (by decide)).mpr
    (.inr ⟨[2], by decide, by decide +kernel⟩) _ (by decide) (by decide)

/-- A header of eight bytes that announces FLAGS: the first byte of the frame is read for it. -/
theorem not_confined : ¬ ∀ p q : List UInt8, declaredLen p ≤ p.length → declaredLen p ≤ q.length →
    4 ≤ p.length → 4 ≤ q.length →
    q.take (max (declaredLen p) 4) = p.take (max (declaredLen p) 4) →
      radiotapMetaFromPacket q = radiotapMetaFromPacket p := by
  intro h
  have heq := h [0, 0, 8, 0, 2, 0, 0, 0, 0x10] [0, 0, 8, 0, 2, 0, 0, 0, 0x40] (by decide)
    (by decide) (by decide) (by decide) (by decide)
  exact absurd heq (by decide +kernel)

end WfbRs
