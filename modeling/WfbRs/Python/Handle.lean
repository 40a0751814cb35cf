import WfbRs.Lib.Machine

/-!
# A Python object and its threads (`api.py`)

An `Rx` or a `Tx` of the Python package holds a native handle.  `recv` and `send` test `_closed`
and enter a native call.  `close`, which `__exit__` and `__del__` call, tests `_closed` and the
handle and enters native close; it clears the handle and sets `_closed` only behind that.  The
interpreter lock is released during a native call, so these steps interleave in any order.
-/

namespace WfbRs

open Machine

namespace PyObject

/-! ### The code -/

/-- The attributes that a constructor sets.  A null handle is `none`. -/
structure Attrs where
  handle : Option ℕ
  closed : Bool
deriving DecidableEq, Repr

/-- Where a thread is. -/
inductive Pc
  | idle
  /-- In `recv` or `send`, behind the test of `_closed`. -/
  | useChecked
  /-- In native recv or send. -/
  | inUse (handle : Option ℕ)
  /-- In `close`, behind the test of `_closed`. -/
  | closeChecked
  | handleTested
  /-- In native close. -/
  | closing (handle : Option ℕ)
  | closeReturned (handle : Option ℕ)
  /-- In `close`, before `_closed` is set. -/
  | flagging
deriving DecidableEq, Repr

/-- The steps of `recv` and `send`, and those of `close`. -/
inductive Action
  | testUse
  /-- An argument is refused. -/
  | refuse
  | enterUse
  | leaveUse
  | testClose
  | testHandle
  | enterClose
  | leaveClose
  | clearHandle
  | setClosed
deriving DecidableEq, Repr

/-- The native handle of an object; without attributes there is none. -/
def handleOf (attrs : Option Attrs) : Option ℕ := attrs.bind Attrs.handle

/-- A step of one thread. -/
def threadStep (attrs : Option Attrs) : Pc → Action → Option (Pc × Option Attrs)
  -- a missing attribute raises, like a handle that is closed
  | .idle, .testUse => some (if attrs.map Attrs.closed = some false then .useChecked else .idle, attrs)
  | .useChecked, .refuse => some (.idle, attrs)
  | .useChecked, .enterUse => some (.inUse (handleOf attrs), attrs)
  | .inUse _, .leaveUse => some (.idle, attrs)
  | .idle, .testClose =>
      some (if attrs.map Attrs.closed = some false then .closeChecked else .idle, attrs)
  | .closeChecked, .testHandle =>
      some (if (handleOf attrs).isSome then .handleTested else .flagging, attrs)
  | .handleTested, .enterClose => some (.closing (handleOf attrs), attrs)
  | .closing handle, .leaveClose => some (.closeReturned handle, attrs)
  | .closeReturned _, .clearHandle =>
      some (.flagging, attrs.map fun a => { a with handle := none })
  | .flagging, .setClosed => some (.idle, attrs.map fun a => { a with closed := true })
  | _, _ => none

/-- An object and the threads that use it. -/
structure State (ι : Type) where
  attrs : Option Attrs
  pc : ι → Pc
  /-- The handles that native close was entered with. -/
  entered : List ℕ

section

variable {ι : Type}

def State.handle (s : State ι) : Option ℕ := handleOf s.attrs

/-- A step of the thread `i.1`. -/
def step [DecidableEq ι] (s : State ι) (i : ι × Action) : Except Unit (Unit × State ι) :=
  match threadStep s.attrs (s.pc i.1) i.2 with
  | none => .error ()
  | some (pc, attrs) =>
      .ok ((), ⟨attrs, Function.update s.pc i.1 pc,
        if i.2 = .enterClose then s.entered ++ s.handle.toList else s.entered⟩)

/-- An object behind its constructor, before any other call. -/
inductive Constructed : State ι → Prop
  | opened (handle : ℕ) : Constructed ⟨some ⟨some handle, false⟩, fun _ => .idle, []⟩
  /-- The configuration or native open has failed. -/
  | failed : Constructed ⟨some ⟨none, false⟩, fun _ => .idle, []⟩
  /-- The constructor has raised before it sets the attributes. -/
  | unset : Constructed ⟨none, fun _ => .idle, []⟩

/-! ### What is promised -/

/-- Native close was entered at most once with a handle, and no native recv or send runs on a
handle that native close was entered with. -/
def Safe (s : State ι) : Prop :=
  s.entered.Nodup ∧ ∀ t handle, s.pc t = .inUse (some handle) → handle ∉ s.entered

/-- The handle that a thread uses. -/
def Pc.uses : Pc → Option ℕ
  | .inUse handle => handle
  | _ => none

/-- The handle of a thread that has entered native close and not cleared it yet. -/
def Pc.closes : Pc → Option ℕ
  | .closing handle => handle
  | .closeReturned handle => handle
  | _ => none

/-- A native call with a live handle is entered while no thread closes it, and native close while
no thread uses it. -/
def Allowed (s : State ι) (i : ι × Action) : Prop :=
  s.handle ≠ none →
    (i.2 = .enterUse → ∀ t, (s.pc t).closes = none) ∧
    (i.2 = .enterClose → ∀ t, (s.pc t).closes = none ∧ (s.pc t).uses = none)

instance [Fintype ι] (s : State ι) (i : ι × Action) : Decidable (Allowed s i) :=
  inferInstanceAs (Decidable (_ → _))

/-! ### The invariant -/

/-- What holds in every state: there is one handle, a thread that closes it has entered native
close with it, and while it is not cleared the thread that has is still closing it. -/
structure HandleInv (opened : ℕ) (s : State ι) : Prop where
  handle : ∀ h, s.handle = some h → h = opened
  uses : ∀ t h, (s.pc t).uses = some h → h = opened
  closes : ∀ t h, (s.pc t).closes = some h → h = opened ∧ h ∈ s.entered
  live : ∀ h, s.handle = some h → h ∈ s.entered → ∃ t, (s.pc t).closes = some h

lemma Constructed.inv {s : State ι} (h : Constructed s) : ∃ opened, HandleInv opened s ∧ Safe s := by
  cases h with
  | opened handle =>
      exact ⟨handle, ⟨fun _ h => (Option.some.inj h).symm, nofun, nofun, nofun⟩, .nil, nofun⟩
  | failed => exact ⟨0, ⟨nofun, nofun, nofun, nofun⟩, .nil, nofun⟩
  | unset => exact ⟨0, ⟨nofun, nofun, nofun, nofun⟩, .nil, nofun⟩

variable {opened : ℕ} {s s' : State ι} {t : ι} {a : Action} {o : Unit}

lemma Pc.uses_eq_some {pc : Pc} {h : ℕ} : pc.uses = some h ↔ pc = .inUse (some h) := by
  cases pc <;> simp [Pc.uses]

lemma safe_iff : Safe s ↔ s.entered.Nodup ∧ ∀ t h, (s.pc t).uses = some h → h ∉ s.entered := by
  simp only [Safe, Pc.uses_eq_some]

lemma allowed_of_ne (h₁ : a ≠ .enterUse) (h₂ : a ≠ .enterClose) : Allowed s (t, a) :=
  fun _ => ⟨fun h => absurd h h₁, fun h => absurd h h₂⟩

/-- The handle of an object was not closed exactly when no thread closes it. -/
lemma HandleInv.not_mem_iff (h : HandleInv opened s) {x : ℕ} (hx : s.handle = some x) :
    x ∉ s.entered ↔ ∀ u, (s.pc u).closes = none := by
  constructor
  · intro hnot u
    refine Option.eq_none_iff_forall_ne_some.mpr fun y hy => hnot ?_
    obtain ⟨hy, hmem⟩ := h.closes u y hy
    rwa [h.handle x hx, ← hy]
  · intro hnone hmem
    obtain ⟨u, hu⟩ := h.live x hx hmem
    simp [hnone u] at hu

/-! ### Steps -/

variable [DecidableEq ι]

/-- What a step does. -/
inductive StepSpec (s : State ι) (t : ι) (a : Action) (s' : State ι) : Prop
  /-- A step that enters no native call and clears nothing. -/
  | quiet (pc : Pc) (pc_eq : s'.pc = Function.update s.pc t pc) (handle : s'.handle = s.handle)
      (entered : s'.entered = s.entered) (uses : pc.uses = none)
      (closes : pc.closes = (s.pc t).closes) (not_use : a ≠ .enterUse) (not_close : a ≠ .enterClose)
  | enterUse (action : a = .enterUse) (pc_eq : s'.pc = Function.update s.pc t (.inUse s.handle))
      (handle : s'.handle = s.handle) (entered : s'.entered = s.entered)
      (closes : (s.pc t).closes = none)
  | enterClose (action : a = .enterClose)
      (pc_eq : s'.pc = Function.update s.pc t (.closing s.handle)) (handle : s'.handle = s.handle)
      (entered : s'.entered = s.entered ++ s.handle.toList) (closes : (s.pc t).closes = none)
      (uses : (s.pc t).uses = none)
  | clearHandle (pc_eq : s'.pc = Function.update s.pc t .flagging) (handle : s'.handle = none)
      (entered : s'.entered = s.entered) (not_use : a ≠ .enterUse) (not_close : a ≠ .enterClose)

lemma step_eq_ok (h : step s (t, a) = .ok (o, s')) :
    ∃ pc attrs, threadStep s.attrs (s.pc t) a = some (pc, attrs) ∧
      s' = ⟨attrs, Function.update s.pc t pc,
        if a = .enterClose then s.entered ++ s.handle.toList else s.entered⟩ := by
  cases hthread : threadStep s.attrs (s.pc t) a with
  | none => simp [step, hthread] at h
  | some out =>
      simp only [step, hthread, Except.ok.injEq, Prod.mk.injEq, true_and] at h
      exact ⟨out.1, out.2, rfl, h.symm⟩

lemma handleOf_cleared (attrs : Option Attrs) :
    handleOf (attrs.map fun a => { a with handle := none }) = none := by
  cases attrs <;> rfl

lemma handleOf_closed (attrs : Option Attrs) :
    handleOf (attrs.map fun a => { a with closed := true }) = handleOf attrs := by
  cases attrs <;> rfl

/-- Every step is one of the four. -/
lemma step_spec (h : step s (t, a) = .ok (o, s')) : StepSpec s t a s' := by
  obtain ⟨pc, attrs, hthread, rfl⟩ := step_eq_ok h
  simp only [threadStep] at hthread
  split at hthread <;> simp only [Option.some.injEq, Prod.mk.injEq, reduceCtorEq] at hthread <;>
    obtain ⟨rfl, rfl⟩ := hthread
  case h_1 hpc =>
    exact .quiet _ rfl rfl rfl (by split <;> rfl) (by rw [hpc]; split <;> rfl) (by decide)
      (by decide)
  case h_2 hpc => exact .quiet _ rfl rfl rfl rfl (by rw [hpc]; rfl) (by decide) (by decide)
  case h_3 hpc => exact .enterUse rfl rfl rfl rfl (by rw [hpc]; rfl)
  case h_4 hpc => exact .quiet _ rfl rfl rfl rfl (by rw [hpc]; rfl) (by decide) (by decide)
  case h_5 hpc =>
    exact .quiet _ rfl rfl rfl (by split <;> rfl) (by rw [hpc]; split <;> rfl) (by decide)
      (by decide)
  case h_6 hpc =>
    exact .quiet _ rfl rfl rfl (by split <;> rfl) (by rw [hpc]; split <;> rfl) (by decide)
      (by decide)
  case h_7 hpc => exact .enterClose rfl rfl rfl rfl (by rw [hpc]; rfl) (by rw [hpc]; rfl)
  case h_8 hpc => exact .quiet _ rfl rfl rfl rfl (by rw [hpc]; rfl) (by decide) (by decide)
  case h_9 hpc =>
    exact .clearHandle rfl (handleOf_cleared s.attrs) rfl (by decide) (by decide)
  case h_10 hpc =>
    exact .quiet _ rfl (handleOf_closed s.attrs) rfl rfl (by rw [hpc]; rfl) (by decide) (by decide)

/-- What holds of the handles of all threads before a step holds behind it, if it holds of the
thread that took the step. -/
lemma forall_update {pc : ι → Pc} {p : Pc} {f : Pc → Option ℕ} {P : ℕ → Prop}
    (hp : ∀ x, f p = some x → P x) (h : ∀ u x, f (pc u) = some x → P x) :
    ∀ u x, f (Function.update pc t p u) = some x → P x := by
  intro u x hx
  rw [Function.update_apply] at hx
  split at hx
  · exact hp x hx
  · exact h u x hx

/-- A step keeps the invariant. -/
lemma HandleInv.step (h : HandleInv opened s) (hstep : step s (t, a) = .ok (o, s')) :
    HandleInv opened s' := by
  cases step_spec hstep with
  | quiet pc pc_eq handle entered uses closes not_use not_close =>
      have hcloses : ∀ u, (s'.pc u).closes = (s.pc u).closes := by
        intro u
        rw [pc_eq, Function.update_apply]
        split
        · rw [closes, ‹u = t›]
        · rfl
      refine ⟨by rw [handle]; exact h.handle, ?_, ?_, ?_⟩
      · rw [pc_eq]
        exact forall_update (by simp [uses]) h.uses
      · simp only [hcloses, entered]
        exact h.closes
      · simp only [hcloses, handle, entered]
        exact h.live
  | enterUse action pc_eq handle entered closes =>
      refine ⟨by rw [handle]; exact h.handle, ?_, ?_, ?_⟩
      · rw [pc_eq]
        exact forall_update h.handle h.uses
      · rw [pc_eq, entered]
        exact forall_update nofun h.closes
      · rw [handle, entered]
        intro x hx hmem
        obtain ⟨u, hu⟩ := h.live x hx hmem
        have hne : u ≠ t := by
          rintro rfl
          simp [closes] at hu
        exact ⟨u, by rw [pc_eq, Function.update_of_ne hne, hu]⟩
  | enterClose action pc_eq handle entered closes uses =>
      refine ⟨by rw [handle]; exact h.handle, ?_, ?_, ?_⟩
      · rw [pc_eq]
        exact forall_update nofun h.uses
      · rw [pc_eq, entered]
        refine forall_update (fun x hx => ⟨h.handle x hx, ?_⟩) fun u x hx => ?_
        · have hx : s.handle = some x := hx
          simp [hx]
        · exact ⟨(h.closes u x hx).1, List.mem_append_left _ (h.closes u x hx).2⟩
      · -- the thread that enters is the one
        rw [handle]
        exact fun x hx _ => ⟨t, by rw [pc_eq, Function.update_self]; exact hx⟩
  | clearHandle pc_eq handle entered not_use not_close =>
      refine ⟨by simp [handle], ?_, ?_, by simp [handle]⟩
      · rw [pc_eq]
        exact forall_update nofun h.uses
      · rw [pc_eq, entered]
        exact forall_update nofun h.closes

/-- A step that enters nothing keeps an object safe. -/
lemma Safe.of_quiet (hsafe : Safe s) (hentered : s'.entered = s.entered) {pc : Pc}
    (hpc : s'.pc = Function.update s.pc t pc) (huses : pc.uses = none) : Safe s' := by
  rw [safe_iff] at hsafe ⊢
  rw [hentered, hpc]
  exact ⟨hsafe.1, forall_update (by simp [huses]) hsafe.2⟩

/-- A step keeps an object safe exactly when it is allowed. -/
lemma HandleInv.safe_iff_allowed (h : HandleInv opened s) (hsafe : Safe s)
    (hstep : PyObject.step s (t, a) = .ok (o, s')) : Safe s' ↔ Allowed s (t, a) := by
  cases step_spec hstep with
  | quiet pc pc_eq handle entered uses closes not_use not_close =>
      exact iff_of_true (hsafe.of_quiet entered pc_eq uses) (allowed_of_ne not_use not_close)
  | clearHandle pc_eq handle entered not_use not_close =>
      exact iff_of_true (hsafe.of_quiet entered pc_eq rfl) (allowed_of_ne not_use not_close)
  | enterUse action pc_eq handle entered closes =>
      subst action
      cases hhandle : s.handle with
      | none =>
          refine iff_of_true (hsafe.of_quiet entered pc_eq ?_) fun hne => absurd hhandle hne
          rw [hhandle]
          rfl
      | some x =>
          have hallowed : Allowed s (t, .enterUse) ↔ ∀ u, (s.pc u).closes = none := by
            simp [Allowed, hhandle]
          rw [hallowed, ← h.not_mem_iff hhandle, safe_iff, entered, pc_eq, hhandle]
          rw [safe_iff] at hsafe
          constructor
          · rintro ⟨-, huses⟩
            exact huses t x (by rw [Function.update_self]; rfl)
          · intro hnot
            refine ⟨hsafe.1, forall_update (fun y hy => ?_) hsafe.2⟩
            obtain rfl := Option.some.inj hy
            exact hnot
  | enterClose action pc_eq handle entered closes uses =>
      subst action
      cases hhandle : s.handle with
      | none =>
          refine iff_of_true (hsafe.of_quiet ?_ pc_eq rfl) fun hne => absurd hhandle hne
          rw [entered, hhandle, Option.toList_none, List.append_nil]
      | some x =>
          have hallowed : Allowed s (t, .enterClose) ↔
              ∀ u, (s.pc u).closes = none ∧ (s.pc u).uses = none := by
            simp [Allowed, hhandle]
          rw [hallowed, forall_and, ← h.not_mem_iff hhandle, safe_iff, entered, pc_eq, hhandle]
          rw [safe_iff] at hsafe
          constructor
          · rintro ⟨hnodup, huses⟩
            have hnot : x ∉ s.entered := by
              have hdisjoint := List.disjoint_of_nodup_append hnodup
              exact fun hmem => hdisjoint hmem (by simp)
            refine ⟨hnot, fun u => Option.eq_none_iff_forall_ne_some.mpr fun y hy => ?_⟩
            have hne : u ≠ t := by
              rintro rfl
              simp [uses] at hy
            refine huses u y (by rw [Function.update_of_ne hne, hy]) ?_
            have hxy : y = x := (h.uses u y hy).trans (h.handle x hhandle).symm
            simp [hxy]
          · rintro ⟨hnot, hnone⟩
            exact ⟨hsafe.1.append (List.nodup_singleton x) (by simpa using hnot),
              forall_update nofun fun u y hy => by simp [hnone u] at hy⟩

/-! ### Runs -/

/-- **The life of a handle.** In a run of any number of threads on one object, native close is
entered at most once and no native recv or send meets a handle that it was entered with, if and
only if no thread enters a native call between another's native close and its clearing of the
handle, and none enters native close while another is in native recv or send. -/
theorem safe_run_iff {ι : Type} [DecidableEq ι] {s : State ι} (hs : Constructed s)
    {is : List (ι × Action)} {r : Run (State ι) (ι × Action) Unit} (hr : run step s is = .ok r) :
    (Safe s ∧ ∀ e ∈ r.events, Safe e.after) ↔ ∀ e ∈ r.events, Allowed e.before e.input := by
  obtain ⟨opened, hinv, hsafe⟩ := hs.inv
  rw [and_iff_right hsafe]
  exact run_iff (HandleInv opened) Safe Allowed (fun _ _ _ _ h hstep => h.step hstep)
    (fun _ _ _ _ h hsafe hstep => h.safe_iff_allowed hsafe hstep) hinv hsafe hr

/-- A thread receives, then another closes. -/
def recvThenClose : List (Bool × Action) :=
  [(false, .testUse), (false, .enterUse), (false, .leaveUse), (true, .testClose),
    (true, .testHandle), (true, .enterClose), (true, .leaveClose), (true, .clearHandle),
    (true, .setClosed)]

theorem recvThenClose_safe : ∃ r,
    run step ⟨some ⟨some 7, false⟩, fun _ => .idle, []⟩ recvThenClose = .ok r ∧
      ∀ e ∈ r.events, Safe e.after := by
  have hallowed : ∀ r ∈ (run step ⟨some ⟨some 7, false⟩, fun _ => .idle, []⟩ recvThenClose).toOption,
      ∀ e ∈ r.events, Allowed e.before e.input := by decide +kernel
  have hok : (run step ⟨some ⟨some 7, false⟩, fun _ => .idle, []⟩ recvThenClose).isOk := by
    decide +kernel
  cases hrun : run step ⟨some ⟨some 7, false⟩, fun _ => .idle, []⟩ recvThenClose with
  | error => simp [hrun, Except.isOk, Except.toBool] at hok
  | ok r =>
      refine ⟨r, rfl, ((safe_run_iff (.opened 7) hrun).mpr (hallowed r ?_)).2⟩
      rw [hrun]
      rfl

/-- A thread receives while another closes. -/
theorem not_safe_run : ¬ ∀ (ι : Type) [DecidableEq ι] (s : State ι), Constructed s →
    ∀ is r, run step s is = .ok r → ∀ e ∈ r.events, Safe e.after := by
  intro h
  have hsafe := h Bool ⟨some ⟨some 7, false⟩, fun _ => .idle, []⟩ (.opened 7)
    [(false, .testUse), (false, .enterUse), (true, .testClose), (true, .testHandle),
      (true, .enterClose)] _ rfl _ (.tail _ (.tail _ (.tail _ (.tail _ (.head _)))))
  exact hsafe.2 false 7 rfl (by decide)

end

end PyObject

end WfbRs
