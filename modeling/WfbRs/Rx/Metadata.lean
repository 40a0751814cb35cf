import WfbRs.Radiotap.Antennas
import WfbRs.Rx.Waiting

/-!
# Well-formed metadata

What every frame that `recv` returns satisfies, whatever packets were captured: how many antennas
it may name, which slots it leaves at their defaults, and the range of the MCS data.
-/

namespace WfbRs

open Rust RingBuffer

/-! ### The parser -/

/-- The bounds that the field loop keeps. -/
structure FieldState.Bounded (st : FieldState) : Prop where
  antIdx : st.antIdx ≤ 4
  antenna : ∀ (j : ℕ) (hj : j < 4), st.antIdx ≤ j → st.antenna[j] = 0xff
  rssi : ∀ (j : ℕ) (hj : j < 4), st.antIdx < j → st.rssi[j] = Int8.minValue
  noise : ∀ (j : ℕ) (hj : j < 4), st.antIdx < j → st.noise[j] = Int8.maxValue
  mcsIndex : st.mcsIndex ≤ 0x7f
  bandwidth : st.bandwidth = 20 ∨ st.bandwidth = 40

/-- The metadata of a frame: at most four antennas, the slots behind them at their defaults (the
signal of the next antenna may have been read already), and the MCS data in range. -/
structure WfbRxMeta.WellFormed (m : WfbRxMeta) : Prop where
  count : m.antennaCount ≤ 4
  antenna : ∀ (j : ℕ) (hj : j < 4), m.antennaCount.toNat ≤ j → m.antenna[j] = 0xff
  rssi : ∀ (j : ℕ) (hj : j < 4), m.antennaCount.toNat < j → m.rssi[j] = Int8.minValue
  noise : ∀ (j : ℕ) (hj : j < 4), m.antennaCount.toNat < j → m.noise[j] = Int8.maxValue
  mcsIndex : m.mcsIndex ≤ 0x7f
  bandwidth : m.bandwidth = 20 ∨ m.bandwidth = 40

lemma applyField_mcsIndex_le (f : ℕ) (b : List UInt8) {st : FieldState} (h : st.mcsIndex ≤ 0x7f) :
    (applyField f b st).mcsIndex ≤ 0x7f := by
  unfold applyField
  split
  case h_7 =>
    simp only
    split
    · exact UInt8.le_iff_toNat_le.mpr (by
        rw [UInt8.toNat_and]
        exact Nat.and_le_right)
    · exact h
  all_goals exact h

lemma applyField_bandwidth (f : ℕ) (b : List UInt8) {st : FieldState}
    (h : st.bandwidth = 20 ∨ st.bandwidth = 40) :
    (applyField f b st).bandwidth = 20 ∨ (applyField f b st).bandwidth = 40 := by
  unfold applyField
  split
  case h_7 =>
    simp only
    split
    · exact .inr rfl
    · exact h
  all_goals exact h

namespace FieldState

variable {st : FieldState}

lemma bounded_start (off : ℕ) : Bounded { curOff := off } where
  antIdx := Nat.zero_le _
  antenna j hj _ := by simp
  rssi j hj _ := by simp
  noise j hj _ := by simp
  mcsIndex := show (0 : UInt8) ≤ 0x7f by decide
  bandwidth := .inl rfl

/-- A field that is read before the fifth antenna keeps the bounds. -/
lemma Bounded.applyField (h : st.Bounded) (hant : st.antIdx < 4) (f : ℕ) (b : List UInt8) :
    (applyField f b st).Bounded where
  antIdx := by
    rw [applyField_antIdx]
    split <;> omega
  antenna j hj hle := by
    rw [applyField_antIdx] at hle
    simp only [applyField_antenna]
    split at hle
    · rename_i hf
      have hne : st.antIdx ≠ j := by omega
      simp only [if_pos hf, Vector.getElem_setIfInBounds, if_neg hne]
      exact h.antenna j hj (by omega)
    · rename_i hf
      simp only [if_neg hf]
      exact h.antenna j hj hle
  rssi j hj hlt := by
    have hlt' : st.antIdx < j := by
      rw [applyField_antIdx] at hlt
      split at hlt <;> omega
    simp only [applyField_rssi]
    split
    · rw [Vector.getElem_setIfInBounds, if_neg (by omega)]
      exact h.rssi j hj hlt'
    · exact h.rssi j hj hlt'
  noise j hj hlt := by
    have hlt' : st.antIdx < j := by
      rw [applyField_antIdx] at hlt
      split at hlt <;> omega
    simp only [applyField_noise]
    split
    · rw [Vector.getElem_setIfInBounds, if_neg (by omega)]
      exact h.noise j hj hlt'
    · exact h.noise j hj hlt'
  mcsIndex := applyField_mcsIndex_le f b h.mcsIndex
  bandwidth := applyField_bandwidth f b h.bandwidth

/-- So does a round of the field loop, whatever the packet. -/
lemma Bounded.fieldRound (h : st.Bounded) {pkt : List UInt8} {ws : List UInt32} {i : ℕ}
    {flow : Flow FieldState Unit} (hround : WfbRs.fieldRound pkt ws i st = .ok flow)
    {st' : FieldState} (hst' : flow = .next st' ∨ flow = .brk st') : st'.Bounded := by
  have hsame {flow' : Flow FieldState Unit} (hflow : flow' = flow)
      (h' : flow' = .next st ∨ flow' = .brk st) : st'.Bounded := by
    obtain rfl := hflow
    rcases h' with rfl | rfl <;> rcases hst' with hst' | hst' <;> cases hst' <;> exact h
  rw [WfbRs.fieldRound] at hround
  obtain ⟨w, -, hround⟩ := bind_eq_ok.mp hround
  split at hround
  · exact hsame (Except.ok.inj hround) (.inl rfl)
  split at hround
  · exact hsame (Except.ok.inj hround) (.inr rfl)
  rename_i hant
  simp only at hround
  split at hround
  · exact hsame (Except.ok.inj hround) (.inr rfl)
  · rename_i align size hlay
    obtain ⟨off, -, hround⟩ := bind_eq_ok.mp hround
    obtain ⟨fin, hfin, hround⟩ := bind_eq_ok.mp hround
    simp only [hfin, ok_bind] at hround
    split at hround
    · obtain rfl := Except.ok.inj hround
      rcases hst' with hst' | hst' <;> cases hst'
    · -- a known field inside the packet is read
      obtain ⟨b, hb, hround⟩ := bind_eq_ok.mp hround
      obtain ⟨st₁, hread, hround⟩ := bind_eq_ok.mp hround
      obtain rfl := Except.ok.inj hround
      have hsize : b.length = size := by
        rw [length_of_slice hb, uadd_eq_ok hfin]
        omega
      rw [readField_eq hlay hsize (Nat.lt_of_not_le hant)] at hread
      obtain rfl := Except.ok.inj hread
      obtain ⟨h₁, h₂, h₃, h₄, h₅, h₆⟩ := h.applyField (Nat.lt_of_not_le hant) (i % 2 ^ 32) b
      rcases hst' with hst' | hst' <;> cases hst'
      exact ⟨h₁, h₂, h₃, h₄, h₅, h₆⟩

/-- The bounds of the state are those of the metadata. -/
lemma Bounded.toRxMeta (h : st.Bounded) (radiotapLen : ℕ) (seq : UInt32) (flags : UInt8) :
    ((st.toMeta radiotapLen).toRxMeta seq flags).WellFormed := by
  have hant := h.antIdx
  have hcount : (UInt8.ofNat st.antIdx).toNat = st.antIdx := by
    rw [UInt8.toNat_ofNat']
    exact Nat.mod_eq_of_lt (by omega)
  exact
    { count := UInt8.le_iff_toNat_le.mpr (hcount.le.trans hant)
      antenna := fun j hj hle => h.antenna j hj (hcount ▸ hle)
      rssi := fun j hj hlt => h.rssi j hj (hcount ▸ hlt)
      noise := fun j hj hlt => h.noise j hj (hcount ▸ hlt)
      mcsIndex := h.mcsIndex
      bandwidth := h.bandwidth }

end FieldState

/-- The metadata of every packet that the parser accepts. -/
lemma RadiotapMeta.wellFormed {pkt : List UInt8} {m : RadiotapMeta}
    (h : radiotapMetaFromPacket pkt = .ok (some m)) (seq : UInt32) (flags : UInt8) :
    (m.toRxMeta seq flags).WellFormed := by
  rw [radiotapMetaFromPacket] at h
  split at h
  · cases h
  obtain ⟨version, -, h⟩ := bind_eq_ok.mp h
  split at h
  · cases h
  obtain ⟨lenBytes, -, h⟩ := bind_eq_ok.mp h
  obtain ⟨len, -, h⟩ := bind_eq_ok.mp h
  simp only at h
  split at h
  · cases h
  obtain ⟨s, -, h⟩ := bind_eq_ok.mp h
  cases s with
  | inr u => cases h
  | inl s =>
      obtain ⟨words, -, h⟩ := bind_eq_ok.mp h
      obtain ⟨argsOffset, -, h⟩ := bind_eq_ok.mp h
      split at h
      · cases h
      obtain ⟨maxFieldBit, -, h⟩ := bind_eq_ok.mp h
      obtain ⟨r, hloop, h⟩ := bind_eq_ok.mp h
      cases r with
      | inr u => cases h
      | inl st =>
          obtain rfl := Option.some.inj (Except.ok.inj h)
          have hst : st.Bounded := forRange_inv FieldState.Bounded
            (fun _ _ _ hs hround _ hs' => hs.fieldRound hround hs')
            (FieldState.bounded_start argsOffset) hloop
          exact hst.toRxMeta _ seq flags

/-! ### The frames of a receiver -/

/-- A frame that the parser makes: its payload fits a slot, and its metadata are well formed. -/
structure Frame.WellFormed (f : Frame) : Prop where
  payload : f.payload.length ≤ computeMaxPayload
  rxMeta : f.rxMeta.WellFormed
  truncated : f.rxMeta.truncated = false

namespace WfbRx

lemma wellFormed_of_accepted {ignore : Bool} {pkt : List UInt8} {f : Frame}
    (h : acceptedFrame ignore computeMaxPayload pkt = some f) : f.WellFormed := by
  have hlen := acceptedFrame_length h
  obtain ⟨m, hm, -, rfl⟩ := acceptedFrame_eq_some.mp h
  exact ⟨hlen, RadiotapMeta.wellFormed hm _ _, rfl⟩

lemma wellFormed_of_kept {rx : WfbRx} (hinv : RingInv rx) {batch : List CapturedPacket} {f : Frame}
    (h : f ∈ rx.kept batch) : f.WellFormed := by
  obtain ⟨p, -, hp⟩ := List.mem_filterMap.mp (List.mem_of_mem_take h)
  rw [hinv.max_eq] at hp
  exact wellFormed_of_accepted hp

/-- The frames that a call takes and leaves are well formed when those queued before it are. -/
lemma RecvSpec.wellFormed {rx : WfbRx} {buf : List UInt8} {world : World} {out : RecvOut}
    (h : RecvSpec rx buf world out) (hinv : RingInv rx) (hqueue : ∀ f ∈ rx.queue, f.WellFormed) :
    ∃ f, Answer rx buf world out f ∧ ∀ g ∈ f.toList ++ out.rx.queue, g.WellFormed := by
  obtain ⟨f, hanswer, hframes⟩ := h.frames
  refine ⟨f, hanswer, fun g hg => ?_⟩
  rw [hframes] at hg
  rcases List.mem_append.mp hg with hg | hg
  · exact hqueue g hg
  · obtain ⟨d, -, hd⟩ := List.mem_flatMap.mp hg
    exact wellFormed_of_kept hinv hd

/-- Every frame queued at a reachable receiver is well formed. -/
lemma Reachable.wellFormed {rx : WfbRx} (h : Reachable rx) : ∀ f ∈ rx.queue, f.WellFormed := by
  induction h with
  | opened h => simp [(opened_inv h).2]
  | @packet rx rx' h pkt hstep ih =>
      intro f hf
      rw [received_of_processed h.inv hstep, (received_spec h.inv pkt).2.2, h.inv.max_eq] at hf
      cases hacc : acceptedFrame rx.ignoreSelfInjected computeMaxPayload pkt with
      | none =>
          rw [hacc] at hf
          exact ih f hf
      | some g =>
          rw [hacc, Option.elim_some, offer] at hf
          split at hf
          · rcases List.mem_append.mp hf with hf | hf
            · exact ih f hf
            · exact List.mem_singleton.mp hf ▸ wellFormed_of_accepted hacc
          · exact ih f hf
  | @recv rx out h buf timeout world hstep ih =>
      obtain ⟨out', hout, hspec⟩ := recv_spec h.inv buf timeout world
      obtain rfl := Except.ok.inj (hstep.symm.trans hout)
      obtain ⟨f, -, hall⟩ := hspec.wellFormed h.inv ih
      exact fun g hg => hall g (List.mem_append_right _ hg)

/-- What a call returns: `n` bytes at the front of the buffer and well-formed metadata. -/
structure ReturnsWell (buf : List UInt8) (out : RecvOut) (n : ℕ) (m : WfbRxMeta) : Prop where
  fits : n ≤ buf.length
  payload : n ≤ computeMaxPayload
  length : out.buf.length = buf.length
  /-- The rest of the buffer is as it was. -/
  rest : out.buf.drop n = buf.drop n
  /-- A payload is cut only where the buffer ends. -/
  truncated : m.truncated = true → n = buf.length ∧ n < computeMaxPayload
  rxMeta : m.WellFormed

/-- **What `recv` returns is well formed**, after any run and whatever was captured. -/
theorem recv_returns_well {rx : WfbRx} (hr : Reachable rx) {buf : List UInt8} {timeout : ℕ}
    {world : World} {out : RecvOut} (hout : recv rx buf timeout world = .ok out) {n : ℕ}
    {m : WfbRxMeta} (hresult : out.result = some (.ok (some (n, m)))) : ReturnsWell buf out n m := by
  obtain ⟨out', hout', hspec⟩ := recv_spec hr.inv buf timeout world
  obtain rfl := Except.ok.inj (hout.symm.trans hout')
  obtain ⟨f, hanswer, hall⟩ := hspec.wellFormed hr.inv hr.wellFormed
  cases hanswer with
  | frame f hres hbuf =>
      obtain ⟨hlen, hmeta, -⟩ := hall f (by simp)
      rw [hresult, Option.some.injEq, Except.ok.injEq, Option.some.injEq, Prod.mk.injEq] at hres
      obtain ⟨rfl, rfl⟩ := hres
      have htake : (f.payload.take buf.length).length = min f.payload.length buf.length := by
        rw [List.length_take, min_comm]
      exact
        { fits := min_le_right _ _
          payload := (min_le_left _ _).trans hlen
          length := by
            rw [hbuf, List.length_append, htake, List.length_drop]
            omega
          rest := by
            rw [hbuf, List.drop_left' htake]
            rcases Nat.le_total f.payload.length buf.length with hle | hle
            · rw [min_eq_left hle]
            · rw [min_eq_right hle, List.drop_eq_nil_of_le hle, List.drop_length]
          truncated := fun h => by
            have hne := of_decide_eq_true h
            omega
          rxMeta := ⟨hmeta.1, hmeta.2, hmeta.3, hmeta.4, hmeta.5, hmeta.6⟩ }
  | timeout hres => simp [hresult] at hres
  | failed errno hres => simp [hresult] at hres
  | rejected _ heq => simp [heq] at hresult
  | running hres => simp [hresult] at hres

theorem onWlan0_returns_well : ∃ out n m,
    recv onWlan0 [0, 0] 1 ⟨[0, 0], [.ready], [[heardPacket]]⟩ = .ok out ∧
      ReturnsWell [0, 0] out n m := by
  obtain ⟨out, hout, hframe, -⟩ := recv_of_waiting (opened_inv opened_onWlan0).1
    (show ([0, 0] : List UInt8) ≠ [] by decide) 1 onWlan0_waiting
  obtain ⟨n, m, hresult⟩ := hframe (.inr (by decide))
  exact ⟨out, n, m, hout, recv_returns_well (.opened opened_onWlan0) hout hresult⟩

end WfbRx

end WfbRs
