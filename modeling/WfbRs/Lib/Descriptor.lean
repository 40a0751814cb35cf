import Mathlib

/-!
# Programs over a descriptor table

A program that opens and closes descriptors is a tree of system calls whose branches are the
answers of the system.  Programs run interleaved, one call at a time, over one table in which
an open takes the lowest free number; components outside the programs open and close
descriptors of their own between any two calls.  Every close is recorded with the owner of
the number at that moment.

`Owns` is a logic of ownership for such programs: it follows the one descriptor that a
program holds and asks that it closes nothing else.  Its rule for `bind` composes
specifications, and `Reach.closesOwn` is its soundness: programs that obey it close only what
is theirs and each descriptor once, whatever the others do.  A program that closes a number
twice breaks this for every program that opens and closes one: `exists_not_closesOwn`.
-/

namespace Descriptor

/-- A program over descriptors.  `acquire` asks the system for a new descriptor, `release`
closes a number and ignores the outcome, `call` is any other system call. -/
inductive Prog (E α : Type)
  | done (a : α)
  | acquire (k : Except E ℕ → Prog E α)
  | release (fd : ℕ) (k : Prog E α)
  | call (k : Except E ℤ → Prog E α)

namespace Prog

variable {E α β : Type}

/-- Sequential composition. -/
def bind : Prog E α → (α → Prog E β) → Prog E β
  | done a, f => f a
  | acquire k, f => acquire fun r => (k r).bind f
  | release fd k, f => release fd (k.bind f)
  | call k, f => call fun r => (k r).bind f

instance : Monad (Prog E) where
  pure := done
  bind := bind

@[simp] lemma pure_eq_done (a : α) : (pure a : Prog E α) = done a := rfl

@[simp] lemma done_bind (a : α) (f : α → Prog E β) : done a >>= f = f a := rfl

@[simp] lemma acquire_bind (k : Except E ℕ → Prog E α) (f : α → Prog E β) :
    acquire k >>= f = acquire fun r => k r >>= f := rfl

@[simp] lemma release_bind (fd : ℕ) (k : Prog E α) (f : α → Prog E β) :
    release fd k >>= f = release fd (k >>= f) := rfl

@[simp] lemma call_bind (k : Except E ℤ → Prog E α) (f : α → Prog E β) :
    call k >>= f = call fun r => k r >>= f := rfl

/-- The program returns this value for some answers of the system. -/
inductive Returns : Prog E α → α → Prop
  | done (a : α) : Returns (done a) a
  | acquire {k : Except E ℕ → Prog E α} {a : α} (r : Except E ℕ) (h : Returns (k r) a) :
      Returns (acquire k) a
  | release {fd : ℕ} {k : Prog E α} {a : α} (h : Returns k a) : Returns (release fd k) a
  | call {k : Except E ℤ → Prog E α} {a : α} (r : Except E ℤ) (h : Returns (k r) a) :
      Returns (call k) a

lemma returns_done {a b : α} : Returns (done a : Prog E α) b ↔ b = a := by
  constructor
  · rintro ⟨⟩
    rfl
  · rintro rfl
    exact .done _

lemma returns_acquire {k : Except E ℕ → Prog E α} {a : α} :
    Returns (acquire k) a ↔ ∃ r, Returns (k r) a :=
  ⟨fun h => by cases h with | acquire r h => exact ⟨r, h⟩, fun ⟨r, h⟩ => .acquire r h⟩

lemma returns_release {fd : ℕ} {k : Prog E α} {a : α} :
    Returns (release fd k) a ↔ Returns k a :=
  ⟨fun h => by cases h with | release h => exact h, .release⟩

lemma returns_call {k : Except E ℤ → Prog E α} {a : α} :
    Returns (call k) a ↔ ∃ r, Returns (k r) a :=
  ⟨fun h => by cases h with | call r h => exact ⟨r, h⟩, fun ⟨r, h⟩ => .call r h⟩

lemma returns_bind {p : Prog E α} {f : α → Prog E β} {b : β} :
    Returns (p >>= f) b ↔ ∃ a, Returns p a ∧ Returns (f a) b := by
  induction p with
  | done a => simp [returns_done]
  | acquire k ih =>
      simp only [acquire_bind, returns_acquire, ih]
      exact exists_comm.trans (exists_congr fun a => by simp only [exists_and_right])
  | release fd k ih => simp only [release_bind, returns_release, ih]
  | call k ih =>
      simp only [call_bind, returns_call, ih]
      exact exists_comm.trans (exists_congr fun a => by simp only [exists_and_right])

/-! ### The ownership logic -/

/-- `Owns post held p`: a program that holds `held` closes only the descriptor it holds, opens
one only when it holds none, and ends in a state that `post` allows. -/
def Owns (post : α → Option ℕ → Prop) : Option ℕ → Prog E α → Prop
  | held, done a => post a held
  | held, acquire k => held = none ∧ ∀ r, Owns post r.toOption (k r)
  | held, release fd k => held = some fd ∧ Owns post none k
  | held, call k => ∀ r, Owns post held (k r)

/-- The rule of sequential composition. -/
lemma Owns.bind {post : α → Option ℕ → Prop} {post' : β → Option ℕ → Prop} {p : Prog E α}
    {f : α → Prog E β} {held : Option ℕ} (hp : Owns post held p)
    (hf : ∀ a held', post a held' → Owns post' held' (f a)) : Owns post' held (p >>= f) := by
  induction p generalizing held with
  | done a => exact hf a held hp
  | acquire k ih => exact ⟨hp.1, fun r => ih r (hp.2 r)⟩
  | release fd k ih => exact ⟨hp.1, ih hp.2⟩
  | call k ih => exact fun r => ih r (hp r)

/-- A specification may speak of what the program returns. -/
lemma Owns.of_returns {post : α → Option ℕ → Prop} {q : α → Prop} {p : Prog E α}
    {held : Option ℕ} (hp : Owns post held p) (hq : ∀ a, p.Returns a → q a) :
    Owns (fun a held' => post a held' ∧ q a) held p := by
  induction p generalizing held with
  | done a => exact ⟨hp, hq a (.done a)⟩
  | acquire k ih => exact ⟨hp.1, fun r => ih r (hp.2 r) fun a ha => hq a (.acquire r ha)⟩
  | release fd k ih => exact ⟨hp.1, ih hp.2 fun a ha => hq a (.release ha)⟩
  | call k ih => exact fun r => ih r (hp r) fun a ha => hq a (.call r ha)

end Prog

/-! ### Interleaved runs -/

/-- A close: who closed which number, and who owned the number then. -/
structure Close (ι κ : Type) where
  closer : ι
  fd : ℕ
  owner : Option (ι ⊕ κ)

/-- A process table: programs indexed by `ι` and outside components indexed by `κ` over one
descriptor table, with the number of descriptors each program has opened and the closes of the
programs so far. -/
structure Sys (E α ι κ : Type) where
  table : ℕ → Option (ι ⊕ κ)
  procs : ι → Prog E α
  opens : ι → ℕ
  closes : List (Close ι κ)

variable {E α ι κ : Type}

/-- The number an open takes. -/
def LowestFree (table : ℕ → Option (ι ⊕ κ)) (n : ℕ) : Prop :=
  table n = none ∧ ∀ m < n, table m ≠ none

variable [DecidableEq ι]

/-- One step: the next system call of a program, or an outside component that opens a
descriptor or closes one of its own. -/
inductive Step : Sys E α ι κ → Sys E α ι κ → Prop
  | acquire {s : Sys E α ι κ} {i : ι} {k : Except E ℕ → Prog E α} {n : ℕ}
      (hp : s.procs i = .acquire k) (hn : LowestFree s.table n) :
      Step s { s with
        table := Function.update s.table n (some (.inl i))
        procs := Function.update s.procs i (k (.ok n))
        opens := Function.update s.opens i (s.opens i + 1) }
  | acquireFail {s : Sys E α ι κ} {i : ι} {k : Except E ℕ → Prog E α} (e : E)
      (hp : s.procs i = .acquire k) :
      Step s { s with procs := Function.update s.procs i (k (.error e)) }
  | release {s : Sys E α ι κ} {i : ι} {fd : ℕ} {k : Prog E α} (hp : s.procs i = .release fd k) :
      Step s { s with
        table := Function.update s.table fd none
        procs := Function.update s.procs i k
        closes := s.closes ++ [⟨i, fd, s.table fd⟩] }
  | call {s : Sys E α ι κ} {i : ι} {k : Except E ℤ → Prog E α} (r : Except E ℤ)
      (hp : s.procs i = .call k) :
      Step s { s with procs := Function.update s.procs i (k r) }
  | otherOpen {s : Sys E α ι κ} (c : κ) {n : ℕ} (hn : LowestFree s.table n) :
      Step s { s with table := Function.update s.table n (some (.inr c)) }
  | otherClose {s : Sys E α ι κ} (c : κ) {n : ℕ} (hn : s.table n = some (.inr c)) :
      Step s { s with table := Function.update s.table n none }

/-- Any number of steps. -/
def Reach : Sys E α ι κ → Sys E α ι κ → Prop := Relation.ReflTransGen Step

/-- A start: no program owns a descriptor, and nothing has happened. -/
structure Sys.Initial (s : Sys E α ι κ) : Prop where
  table : ∀ n i, s.table n ≠ some (.inl i)
  opens : ∀ i, s.opens i = 0
  closes : s.closes = []

/-- How often a program has closed something. -/
def Sys.closesBy (s : Sys E α ι κ) (i : ι) : ℕ := (s.closes.filter fun c => c.closer = i).length

/-- A close is applied to a descriptor of the closer. -/
def Close.Owned (c : Close ι κ) : Prop := c.owner = some (.inl c.closer)

/-! ### Soundness of the logic -/

/-- The invariant: every program obeys the logic from the descriptor it holds, the table knows
the same owners, every close was owned, and what was opened is closed or held. -/
structure Inv (post : ι → α → Option ℕ → Prop) (s : Sys E α ι κ) (held : ι → Option ℕ) : Prop where
  owns : ∀ i, (s.procs i).Owns (post i) (held i)
  table : ∀ n i, s.table n = some (.inl i) ↔ held i = some n
  closes : ∀ c ∈ s.closes, c.Owned
  count : ∀ i, s.closesBy i + (held i).elim 0 (fun _ => 1) = s.opens i

variable {post : ι → α → Option ℕ → Prop}

lemma Sys.Initial.inv {s : Sys E α ι κ} (hs : s.Initial)
    (hp : ∀ i, (s.procs i).Owns (post i) none) : Inv post s fun _ => none where
  owns := hp
  table n i := by simp [hs.table n i]
  closes := by simp [hs.closes]
  count i := by simp [Sys.closesBy, hs.closes, hs.opens i]

/-- One program moves on with what it then holds. -/
lemma owns_update {procs : ι → Prog E α} {held : ι → Option ℕ}
    (h : ∀ j, (procs j).Owns (post j) (held j)) {i : ι} {p : Prog E α} {o : Option ℕ}
    (hp : p.Owns (post i) o) (j : ι) :
    (Function.update procs i p j).Owns (post j) (Function.update held i o j) := by
  by_cases hj : j = i
  · subst hj
    simpa using hp
  · simpa [Function.update_of_ne hj] using h j

/-- A program that moves without a descriptor keeps the invariant. -/
lemma Inv.stay {s : Sys E α ι κ} {held : ι → Option ℕ} (h : Inv post s held) {i : ι}
    {p : Prog E α} (hp : p.Owns (post i) (held i)) :
    Inv post { s with procs := Function.update s.procs i p } held where
  owns := by simpa using owns_update h.owns hp
  table := h.table
  closes := h.closes
  count := h.count

/-- Changing an entry of the table that no program owns, to one that none owns. -/
lemma Inv.retable {s : Sys E α ι κ} {held : ι → Option ℕ} (h : Inv post s held) {n : ℕ}
    {o : Option (ι ⊕ κ)} (hn : ∀ i, s.table n ≠ some (.inl i)) (ho : ∀ i, o ≠ some (.inl i)) :
    Inv post { s with table := Function.update s.table n o } held where
  owns := h.owns
  table m i := by
    by_cases hm : m = n
    · subst hm
      have hne := mt (h.table m i).mpr (hn i)
      simp [ho i, hne]
    · simpa [Function.update_of_ne hm] using h.table m i
  closes := h.closes
  count := h.count

/-- A granted open: the program holds the number it is given. -/
lemma Inv.acquire {s : Sys E α ι κ} {held : ι → Option ℕ} (h : Inv post s held) {i : ι} {n : ℕ}
    {p : Prog E α} (hnone : held i = none) (hfree : s.table n = none)
    (hp : p.Owns (post i) (some n)) :
    Inv post { s with
      table := Function.update s.table n (some (.inl i))
      procs := Function.update s.procs i p
      opens := Function.update s.opens i (s.opens i + 1) } (Function.update held i (some n)) where
  owns := owns_update h.owns hp
  table m j := by
    by_cases hj : j = i <;> by_cases hm : m = n
    · simp [hj, hm]
    · have hne := mt (h.table m i).mp (by simp [hnone])
      simp [hj, Function.update_of_ne hm, hne, Ne.symm hm]
    · have hne := mt (h.table n j).mpr (by simp [hfree])
      simp [hm, Function.update_of_ne hj, hne, Ne.symm hj]
    · simpa [Function.update_of_ne hm, Function.update_of_ne hj] using h.table m j
  closes := h.closes
  count j := by
    have hcount := h.count j
    by_cases hj : j = i
    · subst hj
      simp only [Sys.closesBy, hnone, Option.elim_none, Function.update_self,
        Option.elim_some] at hcount ⊢
      omega
    · simpa [Function.update_of_ne hj, Sys.closesBy] using hcount

/-- A close of the number that the program holds. -/
lemma Inv.release {s : Sys E α ι κ} {held : ι → Option ℕ} (h : Inv post s held) {i : ι} {fd : ℕ}
    {p : Prog E α} (hheld : held i = some fd) (hp : p.Owns (post i) none) :
    Inv post { s with
      table := Function.update s.table fd none
      procs := Function.update s.procs i p
      closes := s.closes ++ [⟨i, fd, s.table fd⟩] } (Function.update held i none) where
  owns := owns_update h.owns hp
  table m j := by
    by_cases hj : j = i <;> by_cases hm : m = fd
    · simp [hj, hm]
    · have hne := mt (h.table m i).mp (by rw [hheld]; simpa using Ne.symm hm)
      simp [hj, Function.update_of_ne hm, hne]
    · have hne := mt (h.table fd j).mpr (by rw [(h.table fd i).mpr hheld]; simpa using Ne.symm hj)
      simp [hm, Function.update_of_ne hj, hne]
    · simpa [Function.update_of_ne hm, Function.update_of_ne hj] using h.table m j
  closes := by
    intro c hc
    rcases List.mem_append.mp hc with hc | hc
    · exact h.closes c hc
    · obtain rfl := List.mem_singleton.mp hc
      exact (h.table fd i).mpr hheld
  count j := by
    have hcount := h.count j
    simp only [Sys.closesBy, List.filter_append, List.length_append] at hcount ⊢
    by_cases hj : j = i
    · subst hj
      simp only [hheld, Option.elim_some, Function.update_self, Option.elim_none] at hcount ⊢
      simpa using hcount
    · simpa [Function.update_of_ne hj, Ne.symm hj] using hcount

lemma Inv.step {s s' : Sys E α ι κ} {held : ι → Option ℕ} (h : Inv post s held)
    (hstep : Step s s') : ∃ held', Inv post s' held' := by
  cases hstep with
  | @acquire i k n hp hn =>
      have hown := h.owns i
      rw [hp] at hown
      obtain ⟨hnone, hk⟩ := hown
      exact ⟨_, h.acquire hnone hn.1 (hk (.ok n))⟩
  | @acquireFail i k e hp =>
      have hown := h.owns i
      rw [hp] at hown
      obtain ⟨hnone, hk⟩ := hown
      refine ⟨held, h.stay ?_⟩
      simpa [hnone, Except.toOption] using hk (.error e)
  | @release i fd k hp =>
      have hown := h.owns i
      rw [hp] at hown
      exact ⟨_, h.release hown.1 hown.2⟩
  | @call i k r hp =>
      have hown := h.owns i
      rw [hp] at hown
      exact ⟨held, h.stay (hown r)⟩
  | otherOpen c hn => exact ⟨held, h.retable (by simp [hn.1]) (by simp)⟩
  | otherClose c hn => exact ⟨held, h.retable (by simp [hn]) (by simp)⟩

/-- **Soundness.** Programs that obey the logic keep the invariant in every run. -/
theorem Reach.inv {s s' : Sys E α ι κ} (h : Reach s s') (hs : s.Initial)
    (hp : ∀ i, (s.procs i).Owns (post i) none) : ∃ held, Inv post s' held := by
  induction h with
  | refl => exact ⟨_, hs.inv hp⟩
  | tail _ hstep ih =>
      obtain ⟨held, hinv⟩ := ih
      exact hinv.step hstep

/-! ### Closing what is one's own -/

/-- Program `i` has closed only what it owned, each descriptor once; a program that has ended
without a descriptor has closed all it opened. -/
structure ClosesOwn (s : Sys E Bool ι κ) (i : ι) : Prop where
  owned : ∀ c ∈ s.closes, c.closer = i → c.Owned
  once : s.closesBy i ≤ s.opens i
  ended : s.procs i = .done false → s.closesBy i = s.opens i

/-- The postcondition of a program that says whether it still holds a descriptor. -/
def Tells (b : Bool) (held : Option ℕ) : Prop := b = held.isSome

/-- Programs that obey the logic and tell what they hold close what is their own, in every
run. -/
theorem Reach.closesOwn {s s' : Sys E Bool ι κ} (h : Reach s s') (hs : s.Initial)
    (hp : ∀ i, (s.procs i).Owns Tells none) (i : ι) : ClosesOwn s' i := by
  obtain ⟨held, hinv⟩ := h.inv hs hp
  have hcount := hinv.count i
  refine ⟨fun c hc _ => hinv.closes c hc, by omega, fun hdone => ?_⟩
  have hown := hinv.owns i
  rw [hdone] at hown
  have hnone : held i = none := by
    rw [← Option.not_isSome_iff_eq_none, ← hown]
    exact Bool.false_ne_true
  rw [hnone] at hcount
  exact hcount

/-- A program that has ended without opening or closing anything. -/
structure Idle (s : Sys E α ι κ) (i : ι) (a : α) : Prop where
  ended : s.procs i = .done a
  opens : s.opens i = 0
  closes : ∀ c ∈ s.closes, c.closer ≠ i

/-- The steps of a run leave such a program alone. -/
lemma Idle.step {s s' : Sys E α ι κ} {i : ι} {a : α} (h : Idle s i a) (hstep : Step s s') :
    Idle s' i a := by
  have hne : ∀ {j : ι}, s.procs j ≠ .done a → i ≠ j := by
    rintro j hj rfl
    exact hj h.ended
  cases hstep with
  | acquire hp hn =>
      have hij := hne (by rw [hp]; simp)
      exact ⟨by simpa [Function.update_of_ne hij] using h.ended,
        by simpa [Function.update_of_ne hij] using h.opens, h.closes⟩
  | acquireFail e hp =>
      have hij := hne (by rw [hp]; simp)
      exact ⟨by simpa [Function.update_of_ne hij] using h.ended, h.opens, h.closes⟩
  | release hp =>
      have hij := hne (by rw [hp]; simp)
      refine ⟨by simpa [Function.update_of_ne hij] using h.ended, h.opens, ?_⟩
      intro c hc
      rcases List.mem_append.mp hc with hc | hc
      · exact h.closes c hc
      · rw [List.mem_singleton.mp hc]
        exact Ne.symm hij
  | call r hp =>
      have hij := hne (by rw [hp]; simp)
      exact ⟨by simpa [Function.update_of_ne hij] using h.ended, h.opens, h.closes⟩
  | otherOpen c hn => exact ⟨h.ended, h.opens, h.closes⟩
  | otherClose c hn => exact ⟨h.ended, h.opens, h.closes⟩

/-- A program that ends at once closes nothing, whatever the others do. -/
lemma Reach.closesOwn_of_done {s s' : Sys E Bool ι κ} (h : Reach s s') (hs : s.Initial) {i : ι}
    {b : Bool} (hi : s.procs i = .done b) : ClosesOwn s' i := by
  have hidle : Idle s' i b := by
    induction h with
    | refl => exact ⟨hi, hs.opens i, by simp [hs.closes]⟩
    | tail _ hstep ih => exact ih.step hstep
  have hzero : s'.closesBy i = 0 := by
    rw [Sys.closesBy, List.length_eq_zero_iff, List.filter_eq_nil_iff]
    intro c hc
    simpa using hidle.closes c hc
  exact ⟨fun c hc hci => absurd hci (hidle.closes c hc), by omega,
    fun _ => by rw [hzero, hidle.opens]⟩

/-! ### Closing a number twice -/

/-- `p` becomes `q` by some answers to its calls. -/
inductive Prog.CallsTo : Prog E α → Prog E α → Prop
  | refl (p : Prog E α) : CallsTo p p
  | call {k : Except E ℤ → Prog E α} {q : Prog E α} (r : Except E ℤ) (h : CallsTo (k r) q) :
      CallsTo (.call k) q

omit [DecidableEq ι] in
lemma Prog.CallsTo.bind {β : Type} {p q : Prog E α} (h : CallsTo p q) (f : α → Prog E β) :
    CallsTo (p >>= f) (q >>= f) := by
  induction h with
  | refl p => exact .refl _
  | call r _ ih => exact .call r ih

omit [DecidableEq ι] in
lemma Prog.CallsTo.trans {p q r : Prog E α} (h : CallsTo p q) (h' : CallsTo q r) :
    CallsTo p r := by
  induction h with
  | refl p => exact h'
  | call a _ ih => exact .call a (ih h')

/-- By some answers to its calls, `p` closes `n` next. -/
def Prog.Releases (p : Prog E α) (n : ℕ) : Prop := ∃ k, p.CallsTo (.release n k)

omit [DecidableEq ι] in
lemma Prog.Releases.release {n : ℕ} {k : Prog E α} : (Prog.release n k).Releases n := ⟨k, .refl _⟩

omit [DecidableEq ι] in
lemma Prog.Releases.call {n : ℕ} {k : Except E ℤ → Prog E α} (r : Except E ℤ)
    (h : (k r).Releases n) : (Prog.call k).Releases n := by
  obtain ⟨k', hk'⟩ := h
  exact ⟨k', .call r hk'⟩

/-- In some run the program opens a descriptor and then closes it. -/
def Prog.OpensAndCloses (p : Prog E α) : Prop :=
  ∃ k, p.CallsTo (.acquire k) ∧ ∀ n, (k (.ok n)).Releases n

/-- In some run the program opens a descriptor and then closes its number twice. -/
def Prog.ClosesTwice (p : Prog E α) : Prop :=
  ∃ k, p.CallsTo (.acquire k) ∧ ∀ n, ∃ k', (k (.ok n)).CallsTo (.release n k') ∧ k'.Releases n

/-- In some run the program opens a descriptor and returns `f` of it. -/
def Prog.OpensTo (p : Prog E α) (f : ℕ → α) : Prop :=
  ∃ k, p.CallsTo (.acquire k) ∧ ∀ n, (k (.ok n)).CallsTo (.done (f n))

omit [DecidableEq ι] in
lemma Prog.OpensAndCloses.bind {β : Type} {p : Prog E α} (h : p.OpensAndCloses)
    (f : α → Prog E β) : (p >>= f).OpensAndCloses := by
  obtain ⟨k, hk, hclose⟩ := h
  refine ⟨_, hk.bind f, fun n => ?_⟩
  obtain ⟨k', hk'⟩ := hclose n
  exact ⟨_, hk'.bind f⟩

omit [DecidableEq ι] in
lemma Prog.OpensTo.closesTwice {β : Type} {p : Prog E α} {f : ℕ → α} {g : α → Prog E β}
    (h : p.OpensTo f) (hg : ∀ n, ∃ k', (g (f n)).CallsTo (.release n k') ∧ k'.Releases n) :
    (p >>= g).ClosesTwice := by
  obtain ⟨k, hk, hdone⟩ := h
  refine ⟨_, hk.bind g, fun n => ?_⟩
  obtain ⟨k', hk', hclose⟩ := hg n
  exact ⟨k', ((hdone n).bind g).trans hk', hclose⟩

omit [DecidableEq ι] in
lemma Prog.OpensTo.bind {β : Type} {p : Prog E α} {f : ℕ → α} {g : α → Prog E β} {f' : ℕ → β}
    (h : p.OpensTo f) (hg : ∀ n, (g (f n)).CallsTo (.done (f' n))) : (p >>= g).OpensTo f' := by
  obtain ⟨k, hk, hdone⟩ := h
  exact ⟨_, hk.bind g, fun n => ((hdone n).bind g).trans (hg n)⟩

/-- All numbers are free, and nothing has happened. -/
def Sys.start (procs : ι → Prog E α) : Sys E α ι κ := ⟨fun _ => none, procs, fun _ => 0, []⟩

omit [DecidableEq ι] in
lemma Sys.start_initial (procs : ι → Prog E α) : (Sys.start procs : Sys E α ι κ).Initial :=
  ⟨fun _ _ => by simp [Sys.start], fun _ => rfl, rfl⟩

/-- A program makes its calls while the others wait. -/
lemma reach_calls {p q : Prog E α} (h : p.CallsTo q) {s : Sys E α ι κ} {i : ι}
    (hp : s.procs i = p) : Reach s { s with procs := Function.update s.procs i q } := by
  induction h generalizing s with
  | refl p =>
      rw [← hp, Function.update_eq_self]
      exact Relation.ReflTransGen.refl
  | call r _ ih =>
      have hrest := ih (s := { s with procs := Function.update s.procs i _ })
        (Function.update_self i _ s.procs)
      rw [Function.update_idem] at hrest
      exact Relation.ReflTransGen.head (.call r hp) hrest

/-- A program makes its calls up to an open, which takes number 0. -/
lemma reach_open {s : Sys E α ι κ} {i : ι} {k : Except E ℕ → Prog E α}
    (h : (s.procs i).CallsTo (.acquire k)) (hfree : s.table 0 = none) :
    ∃ s', Reach s s' ∧ s'.procs = Function.update s.procs i (k (.ok 0)) ∧
      s'.table 0 = some (.inl i) := by
  have hlow : LowestFree s.table 0 := ⟨hfree, fun m hm => absurd hm (Nat.not_lt_zero m)⟩
  refine ⟨_, (reach_calls h rfl).tail (.acquire (Function.update_self i _ s.procs) hlow), ?_, ?_⟩
  · simp only [Function.update_idem]
  · simp only [Function.update_self]

/-- A program makes its calls up to a close. -/
lemma reach_close {s : Sys E α ι κ} {i : ι} {n : ℕ} {k : Prog E α}
    (h : (s.procs i).CallsTo (.release n k)) :
    ∃ s', Reach s s' ∧ s'.procs = Function.update s.procs i k ∧ s'.table n = none ∧
      s'.closes = s.closes ++ [⟨i, n, s.table n⟩] := by
  refine ⟨_, (reach_calls h rfl).tail (.release (Function.update_self i _ s.procs)), ?_, ?_, rfl⟩
  · simp only [Function.update_idem]
  · simp only [Function.update_self]

/-- An outside component that opens a descriptor between the two closes loses it. -/
theorem exists_closes_other (procs : ι → Prog E α) {i : ι} (hi : (procs i).ClosesTwice) (c : κ) :
    ∃ s, Reach (Sys.start procs : Sys E α ι κ) s ∧
      ∃ cl ∈ s.closes, cl.closer = i ∧ cl.owner = some (.inr c) := by
  obtain ⟨k, hk, htwice⟩ := hi
  obtain ⟨k₁, hk₁, k₂, hk₂⟩ := htwice 0
  obtain ⟨s₁, hr₁, hprocs₁, -⟩ := reach_open (s := (Sys.start procs : Sys E α ι κ)) hk rfl
  obtain ⟨s₂, hr₂, hprocs₂, hfree₂, -⟩ := reach_close (s := s₁) (i := i) (n := 0) (k := k₁)
    (by rw [hprocs₁, Function.update_self]; exact hk₁)
  have hopen : Step s₂ { s₂ with table := Function.update s₂.table 0 (some (.inr c)) } :=
    .otherOpen c ⟨hfree₂, fun m hm => absurd hm (Nat.not_lt_zero m)⟩
  obtain ⟨s₃, hr₃, -, -, hcloses⟩ := reach_close
    (s := { s₂ with table := Function.update s₂.table 0 (some (.inr c)) }) (i := i) (n := 0) (k := k₂)
    (by rw [hprocs₂, Function.update_self]; exact hk₂)
  refine ⟨s₃, ((hr₁.trans hr₂).tail hopen).trans hr₃, ⟨i, 0, some (.inr c)⟩, ?_, rfl, rfl⟩
  simp [hcloses]

/-- **A number closed twice is a hazard.** Where one program closes a number twice, some run
makes every program that opens and closes a descriptor close one that is not its own. -/
theorem exists_not_closesOwn (procs : ι → Prog E Bool) {i j : ι} (hi : (procs i).OpensAndCloses)
    (hj : (procs j).ClosesTwice) :
    ∃ s, Reach (Sys.start procs : Sys E Bool ι κ) s ∧ ¬ ClosesOwn s i := by
  -- closing a free number is closing what is not one's own
  have hlast : ∀ {s s' : Sys E Bool ι κ}, s.table 0 = none →
      s'.closes = s.closes ++ [⟨i, 0, s.table 0⟩] → ¬ ClosesOwn s' i := by
    intro s s' hfree hcloses hown
    have howned := hown.owned ⟨i, 0, s.table 0⟩ (by rw [hcloses]; simp) rfl
    rw [Close.Owned, hfree] at howned
    cases howned
  obtain ⟨k, hk, hclose⟩ := hi
  obtain ⟨kj, hkj, htwice⟩ := hj
  obtain ⟨k₁, hk₁, k₂, hk₂⟩ := htwice 0
  -- `j` opens number 0 and closes it once
  obtain ⟨s₁, hr₁, hprocs₁, -⟩ := reach_open (s := (Sys.start procs : Sys E Bool ι κ)) hkj rfl
  obtain ⟨s₂, hr₂, hprocs₂, hfree₂, -⟩ := reach_close (s := s₁) (i := j) (n := 0) (k := k₁)
    (by rw [hprocs₁, Function.update_self]; exact hk₁)
  rw [hprocs₁, Function.update_idem] at hprocs₂
  by_cases hij : i = j
  · subst hij
    obtain ⟨s₃, hr₃, -, -, hcloses⟩ := reach_close (s := s₂) (i := i) (n := 0) (k := k₂)
      (by rw [hprocs₂, Function.update_self]; exact hk₂)
    exact ⟨s₃, (hr₁.trans hr₂).trans hr₃, hlast hfree₂ hcloses⟩
  · -- `i` opens the number, `j` closes it again, and `i` closes what is no longer its own
    obtain ⟨s₃, hr₃, hprocs₃, -⟩ := reach_open (s := s₂) (i := i) (k := k)
      (by rw [hprocs₂, Function.update_of_ne hij]; exact hk) hfree₂
    obtain ⟨s₄, hr₄, hprocs₄, hfree₄, -⟩ := reach_close (s := s₃) (i := j) (n := 0) (k := k₂)
      (by rw [hprocs₃, hprocs₂, Function.update_of_ne (Ne.symm hij), Function.update_self]
          exact hk₂)
    obtain ⟨k', hk'⟩ := hclose 0
    obtain ⟨s₅, hr₅, -, -, hcloses⟩ := reach_close (s := s₄) (i := i) (n := 0) (k := k')
      (by rw [hprocs₄, hprocs₃, Function.update_of_ne hij, Function.update_self]; exact hk')
    exact ⟨s₅, (((hr₁.trans hr₂).trans hr₃).trans hr₄).trans hr₅, hlast hfree₄ hcloses⟩

end Descriptor
