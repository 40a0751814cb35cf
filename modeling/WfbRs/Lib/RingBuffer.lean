import Mathlib

/-!
# Ring buffers over a flat store

Two parts of a bounded queue kept in an array.  `contents` reads the queue off wrapping
indices; `contents_push` and `contents_pop` are its two operations.  `cell` reads one of the
equally wide cells that a flat store is divided into; writing one cell leaves the others as
they were.  `offer` is the abstract operation: append, unless the bound is reached.
-/

namespace RingBuffer

variable {α : Type}

/-! ### Wrapping indices -/

/-- `count` slots from `head` on, wrapping at `n`. -/
def contents (n head count : ℕ) (slot : ℕ → α) : List α :=
  (List.range count).map fun i => slot ((head + i) % n)

@[simp] lemma contents_zero (n head : ℕ) (slot : ℕ → α) : contents n head 0 slot = [] := rfl

@[simp] lemma length_contents (n head count : ℕ) (slot : ℕ → α) :
    (contents n head count slot).length = count := by simp [contents]

/-- Two offsets below the size reach different slots. -/
lemma add_mod_ne {n head i j : ℕ} (hij : i < j) (hj : j < n) :
    (head + i) % n ≠ (head + j) % n := by
  intro heq
  have hmod : i ≡ j [MOD n] := Nat.ModEq.add_left_cancel' head heq
  have := Nat.ModEq.eq_of_lt_of_lt hmod (hij.trans hj) hj
  omega

/-- Writing the slot behind the last one appends to the queue. -/
lemma contents_push {n head count : ℕ} {slot slot' : ℕ → α} (hcount : count < n)
    (h : ∀ j < n, j ≠ (head + count) % n → slot' j = slot j) :
    contents n head (count + 1) slot' =
      contents n head count slot ++ [slot' ((head + count) % n)] := by
  rw [contents, List.range_succ, List.map_append]
  congr 1
  apply List.map_congr_left
  intro i hi
  have hi' := List.mem_range.mp hi
  exact h _ (Nat.mod_lt _ (by omega)) (add_mod_ne hi' hcount)

/-- Moving the head removes the front of the queue. -/
lemma contents_pop {n head count : ℕ} (slot : ℕ → α) (hhead : head < n) :
    contents n head (count + 1) slot = slot head :: contents n ((head + 1) % n) count slot := by
  rw [contents, List.range_succ_eq_map, List.map_cons, List.map_map, Nat.add_zero,
    Nat.mod_eq_of_lt hhead]
  congr 1
  apply List.map_congr_left
  intro i _
  simp only [Function.comp_apply, Nat.succ_eq_add_one, Nat.mod_add_mod]
  congr 2
  omega

/-! ### Cells of a flat store -/

/-- The first `len` entries of cell `i` of a store whose cells are `stride` wide. -/
def cell (store : List α) (stride i len : ℕ) : List α := (store.drop (i * stride)).take len

/-- The store after overwriting the front of cell `i`. -/
def writeCell (store : List α) (stride i : ℕ) (src : List α) : List α :=
  store.take (i * stride) ++ src ++ store.drop (i * stride + src.length)

lemma cell_end_le {n stride i len : ℕ} (hi : i < n) (hlen : len ≤ stride) :
    i * stride + len ≤ n * stride := by
  have h : (i + 1) * stride ≤ n * stride := Nat.mul_le_mul_right stride hi
  rw [Nat.add_mul, Nat.one_mul] at h
  omega

variable {store src : List α} {n stride i : ℕ}

lemma length_writeCell (hstore : store.length = n * stride) (hi : i < n)
    (hsrc : src.length ≤ stride) : (writeCell store stride i src).length = store.length := by
  have hend := cell_end_le hi hsrc
  simp only [writeCell, List.length_append, List.length_take, List.length_drop]
  omega

lemma cell_writeCell_self (hstore : store.length = n * stride) (hi : i < n)
    (hsrc : src.length ≤ stride) : cell (writeCell store stride i src) stride i src.length = src := by
  have hend := cell_end_le hi hsrc
  have hlen : (store.take (i * stride)).length = i * stride := by
    rw [List.length_take]
    omega
  rw [cell, writeCell, List.append_assoc, List.drop_left' hlen, List.take_left' rfl]

lemma cell_writeCell_of_ne (hstore : store.length = n * stride) (hi : i < n)
    (hsrc : src.length ≤ stride) {j len : ℕ} (hj : j ≠ i) (hlen : len ≤ stride) :
    cell (writeCell store stride i src) stride j len = cell store stride j len := by
  have hend := cell_end_le hi hsrc
  have htake : (store.take (i * stride)).length = i * stride := by
    rw [List.length_take]
    omega
  rcases Nat.lt_or_gt_of_ne hj with hlt | hgt
  · -- the cell lies in the part before the write
    have hbefore := cell_end_le hlt hlen
    rw [cell, cell, writeCell, List.append_assoc, List.drop_append_of_le_length (by omega),
      List.take_append_of_le_length (by rw [List.length_drop]; omega), List.drop_take,
      List.take_take, min_eq_left (by omega)]
  · -- the cell lies behind the write
    have hafter := cell_end_le hgt hsrc
    have hfront : (store.take (i * stride) ++ src).length = i * stride + src.length := by
      rw [List.length_append, htake]
    rw [cell, cell, writeCell, List.drop_append, List.drop_eq_nil_of_le (by omega),
      List.nil_append, List.drop_drop, hfront]
    congr 2
    omega

/-! ### The bounded queue -/

/-- Append an element unless the queue already has `cap` of them. -/
def offer (cap : ℕ) (q : List α) (x : α) : List α := if q.length < cap then q ++ [x] else q

/-- Offering a list to a queue keeps what still fits, in order. -/
lemma foldl_offer (cap : ℕ) (q xs : List α) (hq : q.length ≤ cap) :
    xs.foldl (offer cap) q = q ++ xs.take (cap - q.length) := by
  induction xs generalizing q with
  | nil => simp
  | cons x xs ih =>
      rw [List.foldl_cons]
      by_cases h : q.length < cap
      · have hsucc : cap - q.length = (cap - (q ++ [x]).length) + 1 := by
          simp only [List.length_append, List.length_singleton]
          omega
        rw [offer, if_pos h, ih _ (by simp only [List.length_append, List.length_singleton]; omega),
          hsucc, List.take_succ_cons, List.append_assoc, List.singleton_append]
      · have hfull : cap - q.length = 0 := by omega
        rw [offer, if_neg h, ih q hq, hfull, List.take_zero, List.take_zero]

end RingBuffer
