import WfbRs.Lib.Words

/-!
# Records in memory

The layout of a C record: each member at the next multiple of its alignment, the size of the
record a multiple of the strictest of them.  Memory is a byte string.  `Holds` says that a record
is stored at an address, with any bytes in its padding; storing its members one after the other
achieves it, and every reader that computes the same offsets finds the members again.
-/

namespace CLayout

/-! ### Layout -/

/-- Size and alignment of a type. -/
structure CType where
  size : ℕ
  align : ℕ
  align_pos : 0 < align

/-- An unsigned or signed integer of `n` bytes; it is aligned to its size. -/
def CType.int (n : ℕ) (h : 0 < n) : CType := ⟨n, n, h⟩

/-- An array. -/
def CType.array (t : CType) (n : ℕ) : CType := ⟨n * t.size, t.align, t.align_pos⟩

/-- A member of a record. -/
structure Member where
  name : String
  type : CType

/-- The next multiple of `a` from `v` on. -/
def roundUp (v a : ℕ) : ℕ := (v + (a - 1)) / a * a

/-- A member with its offset. -/
structure Placed where
  name : String
  type : CType
  off : ℕ

/-- The members from an offset on. -/
def place : ℕ → List Member → List Placed
  | _, [] => []
  | off, m :: ms =>
      ⟨m.name, m.type, roundUp off m.type.align⟩ ::
        place (roundUp off m.type.align + m.type.size) ms

/-- Where the members end. -/
def endOf : ℕ → List Member → ℕ
  | off, [] => off
  | off, m :: ms => endOf (roundUp off m.type.align + m.type.size) ms

/-- The alignment of a record. -/
def alignOf (ms : List Member) : ℕ := ms.foldr (fun m a => max m.type.align a) 1

def sizeOf (ms : List Member) : ℕ := roundUp (endOf 0 ms) (alignOf ms)

/-- The offset of the member of this name. -/
def offsetOf (ms : List Member) (name : String) : Option ℕ :=
  ((place 0 ms).find? fun p => p.name = name).map Placed.off

lemma le_roundUp {v a : ℕ} (h : 0 < a) : v ≤ roundUp v a := by
  have h₁ := Nat.div_add_mod (v + (a - 1)) a
  have h₂ := Nat.mod_lt (v + (a - 1)) h
  have h₃ := Nat.mul_comm a ((v + (a - 1)) / a)
  rw [roundUp]
  omega

lemma dvd_roundUp (v a : ℕ) : a ∣ roundUp v a := Nat.dvd_mul_left a _

lemma alignOf_pos (ms : List Member) : 0 < alignOf ms := by
  induction ms with
  | nil => exact Nat.one_pos
  | cons m ms ih => exact lt_of_lt_of_le ih (le_max_right _ _)

/-- Every member is aligned and lies between the offsets where the members start and end. -/
lemma place_bounds {off : ℕ} {ms : List Member} {p : Placed} (h : p ∈ place off ms) :
    p.type.align ∣ p.off ∧ off ≤ p.off ∧ p.off + p.type.size ≤ endOf off ms := by
  have hend (off : ℕ) (ms : List Member) : off ≤ endOf off ms := by
    induction ms generalizing off with
    | nil => exact le_rfl
    | cons m ms ih =>
        have hle := le_roundUp (v := off) m.type.align_pos
        exact le_trans (by omega) (ih (roundUp off m.type.align + m.type.size))
  induction ms generalizing off with
  | nil => cases h
  | cons m ms ih =>
      have hle := le_roundUp (v := off) m.type.align_pos
      rcases List.mem_cons.mp h with rfl | h
      · exact ⟨dvd_roundUp _ _, hle, hend _ ms⟩
      · obtain ⟨hdvd, hlo, hhi⟩ := ih h
        exact ⟨hdvd, by omega, hhi⟩

/-- The members do not overlap. -/
lemma pairwise_place (off : ℕ) (ms : List Member) :
    (place off ms).Pairwise fun p q => p.off + p.type.size ≤ q.off := by
  induction ms generalizing off with
  | nil => exact .nil
  | cons m ms ih => exact .cons (fun q hq => (place_bounds hq).2.1) (ih _)

/-- The members lie inside the record. -/
lemma place_le_sizeOf {ms : List Member} {p : Placed} (h : p ∈ place 0 ms) :
    p.off + p.type.size ≤ sizeOf ms :=
  (place_bounds h).2.2.trans (le_roundUp (alignOf_pos ms))

/-! ### Memory -/

/-- The `n` bytes at an address. -/
def load (mem : List UInt8) (addr n : ℕ) : List UInt8 := (mem.drop addr).take n

/-- Overwrite the bytes at an address. -/
def store (mem : List UInt8) (addr : ℕ) (bytes : List UInt8) : List UInt8 :=
  mem.take addr ++ bytes ++ mem.drop (addr + bytes.length)

section Memory

variable {mem bytes : List UInt8} {addr : ℕ}

lemma length_store (h : addr + bytes.length ≤ mem.length) :
    (store mem addr bytes).length = mem.length := by
  simp only [store, List.length_append, List.length_take, List.length_drop]
  omega

lemma load_store_self (h : addr + bytes.length ≤ mem.length) :
    load (store mem addr bytes) addr bytes.length = bytes := by
  have hlen : (mem.take addr).length = addr := by
    rw [List.length_take]
    omega
  rw [load, store, List.append_assoc, List.drop_left' hlen, List.take_left' rfl]

/-- A store leaves the bytes beside it alone. -/
lemma load_store_of_disjoint (h : addr + bytes.length ≤ mem.length) {a n : ℕ}
    (hdisj : a + n ≤ addr ∨ addr + bytes.length ≤ a) :
    load (store mem addr bytes) a n = load mem a n := by
  have htake : (mem.take addr).length = addr := by
    rw [List.length_take]
    omega
  rcases hdisj with hbefore | hafter
  · rw [load, load, store, List.append_assoc, List.drop_append_of_le_length (by omega),
      List.take_append_of_le_length (by rw [List.length_drop]; omega), List.drop_take,
      List.take_take, min_eq_left (by omega)]
  · have hfront : (mem.take addr ++ bytes).length = addr + bytes.length := by
      rw [List.length_append, htake]
    rw [load, load, store, List.drop_append, List.drop_eq_nil_of_le (by omega), List.nil_append,
      List.drop_drop, hfront]
    congr 2
    omega

end Memory

/-! ### Records -/

/-- The bytes of the members of a record, by name. -/
abbrev Value : Type := String → List UInt8

/-- The value has the right number of bytes for every member. -/
def Fits (ms : List Member) (v : Value) : Prop := ∀ p ∈ place 0 ms, (v p.name).length = p.type.size

/-- The record is stored at the address; nothing is said of its padding. -/
def Holds (ms : List Member) (v : Value) (mem : List UInt8) (addr : ℕ) : Prop :=
  ∀ p ∈ place 0 ms, load mem (addr + p.off) p.type.size = v p.name

/-- Store the members one after the other. -/
def storeAll (v : Value) (addr : ℕ) (mem : List UInt8) (ps : List Placed) : List UInt8 :=
  ps.foldl (fun mem p => store mem (addr + p.off) (v p.name)) mem

/-- The bytes that a reader with these members finds under a name. -/
def member (ms : List Member) (mem : List UInt8) (addr : ℕ) (name : String) : List UInt8 :=
  match (place 0 ms).find? fun p => p.name = name with
  | some p => load mem (addr + p.off) p.type.size
  | none => []

variable {ms : List Member} {v : Value} {mem : List UInt8} {addr : ℕ}

/-- Stores of members that do not overlap keep what was stored beside them. -/
lemma load_storeAll {ps : List Placed} (hfit : ∀ p ∈ ps, (v p.name).length = p.type.size)
    (hin : ∀ p ∈ ps, addr + p.off + p.type.size ≤ mem.length) {a n : ℕ}
    (hdisj : ∀ p ∈ ps, a + n ≤ addr + p.off ∨ addr + p.off + p.type.size ≤ a) :
    load (storeAll v addr mem ps) a n = load mem a n ∧
      (storeAll v addr mem ps).length = mem.length := by
  induction ps generalizing mem with
  | nil => exact ⟨rfl, rfl⟩
  | cons p ps ih =>
      have hp := hfit p (by simp)
      have hle : addr + p.off + (v p.name).length ≤ mem.length := hp ▸ hin p (by simp)
      have hlen := length_store hle
      obtain ⟨hload, hlength⟩ := @ih (store mem (addr + p.off) (v p.name))
        (fun q hq => hfit q (by simp [hq])) (fun q hq => hlen ▸ hin q (by simp [hq]))
        fun q hq => hdisj q (by simp [hq])
      refine ⟨?_, hlength.trans hlen⟩
      rw [storeAll, List.foldl_cons]
      exact hload.trans (load_store_of_disjoint hle (hp ▸ hdisj p (by simp)))

/-- A record that was stored member by member is there, and the memory around it is as it was. -/
theorem holds_storeAll (hfit : Fits ms v) (hin : addr + sizeOf ms ≤ mem.length) :
    Holds ms v (storeAll v addr mem (place 0 ms)) addr ∧
      ∀ a n, a + n ≤ addr ∨ addr + sizeOf ms ≤ a →
        load (storeAll v addr mem (place 0 ms)) a n = load mem a n := by
  have hsize : ∀ p ∈ place 0 ms, addr + p.off + p.type.size ≤ addr + sizeOf ms := fun p hp => by
    have hle := place_le_sizeOf hp
    omega
  refine ⟨?_, fun a n hdisj => (load_storeAll hfit (fun p hp => (hsize p hp).trans hin)
    fun p hp => by have hle := hsize p hp; omega).1⟩
  have hdisj := pairwise_place 0 ms
  have hin' : ∀ p ∈ place 0 ms, addr + p.off + p.type.size ≤ mem.length :=
    fun p hp => (hsize p hp).trans hin
  rw [Fits] at hfit
  rw [Holds]
  generalize place 0 ms = ps at hfit hdisj hin'
  clear hsize hin
  induction ps generalizing mem with
  | nil => simp
  | cons p ps ih =>
      have hp := hfit p (by simp)
      have hle : addr + p.off + (v p.name).length ≤ mem.length := hp ▸ hin' p (by simp)
      have hlen := length_store hle
      have hfit' : ∀ q ∈ ps, (v q.name).length = q.type.size := fun q hq => hfit q (by simp [hq])
      have hin'' : ∀ q ∈ ps, addr + q.off + q.type.size ≤ (store mem (addr + p.off) (v p.name)).length :=
        fun q hq => hlen ▸ hin' q (by simp [hq])
      obtain ⟨hfirst, hrest⟩ := List.pairwise_cons.mp hdisj
      intro q hq
      rcases List.mem_cons.mp hq with rfl | hq
      · -- the members behind it start where it ends
        have hkeep := (load_storeAll (a := addr + q.off) (n := q.type.size) hfit' hin''
          fun r hr => .inl (by have := hfirst r hr; omega)).1
        rw [storeAll, List.foldl_cons, ← hp]
        rw [← hp] at hkeep
        exact hkeep.trans (load_store_self hle)
      · exact ih hfit' hrest hin'' q hq

/-- A reader finds the members of a record that is there. -/
lemma Holds.member (h : Holds ms v mem addr) {name : String} (hname : (offsetOf ms name).isSome) :
    CLayout.member ms mem addr name = v name := by
  rw [offsetOf, Option.isSome_map] at hname
  obtain ⟨p, hp⟩ := Option.isSome_iff_exists.mp hname
  have hfound := List.find?_some hp
  rw [CLayout.member, hp]
  simp only [decide_eq_true_eq] at hfound
  rw [← hfound]
  exact h p (List.mem_of_find?_eq_some hp)

end CLayout
