import Mathlib

/-!
# Machines and their runs

A machine takes one input at a time.  A step may fail; otherwise it gives an output and the
next state.  `run` feeds a list of inputs to it and records every step.

`run_simulates` is the rule of simulation by a machine that does not fail.  `run_iff` compares
a property of the states reached with a condition on the steps taken.
-/

namespace Machine

variable {ε σ τ ι ω α : Type}

/-- A step that was taken. -/
structure Event (σ ι ω : Type) where
  before : σ
  input : ι
  output : ω
  after : σ

/-- The steps of a run, and the state behind the last one. -/
structure Run (σ ι ω : Type) where
  events : List (Event σ ι ω)
  final : σ

/-- A run over a list of inputs. -/
def run (step : σ → ι → Except ε (ω × σ)) (s : σ) : List ι → Except ε (Run σ ι ω)
  | [] => .ok ⟨[], s⟩
  | i :: is => do
      let out ← step s i
      let rest ← run step out.2 is
      .ok ⟨⟨s, i, out.1, out.2⟩ :: rest.events, rest.final⟩

/-- The outputs and the last state of a machine that does not fail. -/
def exec (step : τ → ι → α × τ) (t : τ) : List ι → List α × τ
  | [] => ([], t)
  | i :: is => ((step t i).1 :: (exec step (step t i).2 is).1, (exec step (step t i).2 is).2)

variable {step : σ → ι → Except ε (ω × σ)}

lemma run_cons {s s' : σ} {i : ι} {o : ω} {is : List ι} {r : Run σ ι ω}
    (hstep : step s i = .ok (o, s')) (hrest : run step s' is = .ok r) :
    run step s (i :: is) = .ok ⟨⟨s, i, o, s'⟩ :: r.events, r.final⟩ := by
  simp only [run, hstep, bind, Except.bind, hrest]

/-- A run that succeeds begins with a step that does. -/
lemma run_cons_eq_ok {s : σ} {i : ι} {is : List ι} {r : Run σ ι ω} :
    run step s (i :: is) = .ok r ↔ ∃ o s' r', step s i = .ok (o, s') ∧
      run step s' is = .ok r' ∧ r = ⟨⟨s, i, o, s'⟩ :: r'.events, r'.final⟩ := by
  constructor
  · intro h
    cases hstep : step s i with
    | error e => simp [run, hstep, bind, Except.bind] at h
    | ok out =>
        cases hrest : run step out.2 is with
        | error e => simp [run, hstep, hrest, bind, Except.bind] at h
        | ok r' =>
            obtain ⟨o, s'⟩ := out
            rw [run_cons hstep hrest] at h
            exact ⟨o, s', r', rfl, hrest, (Except.ok.inj h).symm⟩
  · rintro ⟨o, s', r', hstep, hrest, rfl⟩
    exact run_cons hstep hrest

/-- What every step that `A` holds of keeps, holds along a run of such steps. -/
theorem run_keeps (K : σ → Prop) (A : σ → ι → Prop)
    (hK : ∀ s i o s', K s → A s i → step s i = .ok (o, s') → K s') {s : σ} (hs : K s)
    {is : List ι} {r : Run σ ι ω} (hr : run step s is = .ok r)
    (hA : ∀ e ∈ r.events, A e.before e.input) : (∀ e ∈ r.events, K e.after) ∧ K r.final := by
  induction is generalizing s r with
  | nil =>
      obtain rfl := Except.ok.inj hr
      exact ⟨by simp, hs⟩
  | cons i is ih =>
      obtain ⟨o, s', r', hstep, hrest, rfl⟩ := run_cons_eq_ok.mp hr
      simp only [List.mem_cons, forall_eq_or_imp] at hA ⊢
      have hs' := hK s i o s' hs hA.1 hstep
      obtain ⟨hall, hfinal⟩ := ih hs' hrest hA.2
      exact ⟨⟨hs', hall⟩, hfinal⟩

/-- **Simulation.** If the relation `R` carries every step to a step of the other machine with the
same observed output, it carries every run; what `Q` says of each step holds along the run. -/
theorem run_simulates (R : σ → τ → Prop) (astep : τ → ι → α × τ) (obs : ω → α)
    (Q : Event σ ι ω → Prop) (p : ι → Prop)
    (hstep : ∀ s t i, R s t → p i → ∃ o s', step s i = .ok (o, s') ∧ obs o = (astep t i).1 ∧
      R s' (astep t i).2 ∧ Q ⟨s, i, o, s'⟩)
    {s : σ} {t : τ} (hR : R s t) (is : List ι) (his : ∀ i ∈ is, p i) :
    ∃ r, run step s is = .ok r ∧ r.events.map Event.input = is ∧
      r.events.map (fun e => obs e.output) = (exec astep t is).1 ∧
      R r.final (exec astep t is).2 ∧ ∀ e ∈ r.events, Q e := by
  induction is generalizing s t with
  | nil => exact ⟨⟨[], s⟩, rfl, rfl, rfl, hR, by simp⟩
  | cons i is ih =>
      obtain ⟨o, s', hs, hobs, hR', hQ⟩ := hstep s t i hR (his i (by simp))
      obtain ⟨r, hr, hinputs, houts, hfinal, hall⟩ := ih hR' fun j hj => his j (by simp [hj])
      refine ⟨_, run_cons hs hr, ?_, ?_, hfinal, ?_⟩
      · rw [List.map_cons, hinputs]
      · rw [List.map_cons, houts, hobs]
        rfl
      · intro e he
        rcases List.mem_cons.mp he with rfl | he
        · exact hQ
        · exact hall e he

/-- If, in the states that `K` allows, a step keeps `P` exactly when `A` holds of it, then `P`
holds in every state of a run exactly when `A` holds of every step. -/
theorem run_iff (K P : σ → Prop) (A : σ → ι → Prop)
    (hK : ∀ s i o s', K s → step s i = .ok (o, s') → K s')
    (hA : ∀ s i o s', K s → P s → step s i = .ok (o, s') → (P s' ↔ A s i))
    {s : σ} (hs : K s) (hP : P s) {is : List ι} {r : Run σ ι ω} (hr : run step s is = .ok r) :
    (∀ e ∈ r.events, P e.after) ↔ ∀ e ∈ r.events, A e.before e.input := by
  induction is generalizing s r with
  | nil =>
      obtain rfl := Except.ok.inj hr
      simp
  | cons i is ih =>
      obtain ⟨o, s', r', hstep, hrest, rfl⟩ := run_cons_eq_ok.mp hr
      have hfirst := hA s i o s' hs hP hstep
      simp only [List.mem_cons, forall_eq_or_imp]
      constructor
      · rintro ⟨hP', hall⟩
        exact ⟨hfirst.mp hP', (ih (hK s i o s' hs hstep) hP' hrest).mp hall⟩
      · rintro ⟨hAi, hall⟩
        have hP' := hfirst.mpr hAi
        exact ⟨hP', (ih (hK s i o s' hs hstep) hP' hrest).mpr hall⟩

end Machine
