import WfbRs.Python.Handle

/-!
# How the Python program ends (`python/examples/simple_txrx.py`)

The program holds a `Tx` and an `Rx` in a `with` statement.  Its main thread sends, and sets an
event behind its last line; another thread receives until it sees the event.  The main thread waits
for that thread, but not for ever, and then leaves the `with` statement, which closes both objects.
-/

namespace WfbRs

open Machine

namespace PyObject

/-! ### An object that one thread closes -/

variable {ι : Type} {h : ℕ} {s s' : State ι} {t : ι} {a : Action} {o : Unit}

/-- The steps of `recv` and `send`. -/
def Action.Uses (a : Action) : Prop := a ∈ [.testUse, .refuse, .enterUse, .leaveUse]

/-- The steps of `close`. -/
def Action.Closes (a : Action) : Prop :=
  a ∈ [.testClose, .testHandle, .enterClose, .leaveClose, .clearHandle, .setClosed]

instance (a : Action) : Decidable a.Uses := inferInstanceAs (Decidable (_ ∈ _))

instance (a : Action) : Decidable a.Closes := inferInstanceAs (Decidable (_ ∈ _))

/-- No thread has come to native close. -/
structure Open (h : ℕ) (s : State ι) : Prop where
  attrs : s.attrs = some ⟨some h, false⟩
  entered : s.entered = []

/-- A thread in `recv` or `send`, or in none. -/
def Pc.Using (h : ℕ) (pc : Pc) : Prop := pc = .idle ∨ pc = .useChecked ∨ pc = .inUse (some h)

/-- A thread in `close`. -/
inductive Closing (h : ℕ) (s : State ι) : Pc → Prop
  | checked (hopen : Open h s) : Closing h s .closeChecked
  | tested (hopen : Open h s) : Closing h s .handleTested
  | native (attrs : s.attrs = some ⟨some h, false⟩) (entered : s.entered = [h]) :
      Closing h s (.closing (some h))
  | returned (attrs : s.attrs = some ⟨some h, false⟩) (entered : s.entered = [h]) :
      Closing h s (.closeReturned (some h))
  | cleared (attrs : s.attrs = some ⟨none, false⟩) (entered : s.entered = [h]) :
      Closing h s .flagging

/-- Native close was entered once, and `_closed` is set. -/
structure Closed (h : ℕ) (s : State ι) : Prop where
  attrs : s.attrs = some ⟨none, true⟩
  entered : s.entered = [h]

lemma Closing.ne_idle {pc : Pc} (hpc : Closing h s pc) : pc ≠ .idle := by
  cases hpc <;> simp

variable [DecidableEq ι]

/-- A step moves one thread. -/
lemma step_pc (hstep : step s (t, a) = .ok (o, s')) : ∀ u ≠ t, s'.pc u = s.pc u := by
  obtain ⟨pc, attrs, -, rfl⟩ := step_eq_ok hstep
  exact fun u hu => Function.update_of_ne hu _ _

/-- A step of `recv` or `send` on an open object. -/
lemma Open.use (hs : Open h s) (hpc : (s.pc t).Using h) (ha : a.Uses)
    (hstep : step s (t, a) = .ok (o, s')) : Open h s' ∧ (s'.pc t).Using h := by
  obtain ⟨pc, attrs, hthread, rfl⟩ := step_eq_ok hstep
  rw [hs.attrs] at hthread
  have hne : a ≠ .enterClose := by
    rintro rfl
    exact absurd ha (by decide)
  -- the attributes stay, and the thread is in `recv` or `send`, or in none
  have hspec : attrs = some ⟨some h, false⟩ ∧ pc.Using h := by
    simp only [Action.Uses, List.mem_cons, List.not_mem_nil, or_false] at ha
    rcases ha with rfl | rfl | rfl | rfl <;> rcases hpc with hpc | hpc | hpc <;>
      simp only [hpc, threadStep, Option.map_some, if_true, handleOf, Option.bind_some,
        Option.some.injEq, Prod.mk.injEq, reduceCtorEq] at hthread <;>
      obtain ⟨rfl, rfl⟩ := hthread <;> simp [Pc.Using]
  refine ⟨⟨hspec.1, ?_⟩, ?_⟩
  · rw [if_neg hne, hs.entered]
  · simp only [Function.update_self]
    exact hspec.2

/-- A step of `close`, up to its end. -/
lemma close_step (hs : (Open h s ∧ s.pc t = .idle) ∨ Closing h s (s.pc t)) (ha : a.Closes)
    (hstep : step s (t, a) = .ok (o, s')) :
    Closing h s' (s'.pc t) ∨ (Closed h s' ∧ s'.pc t = .idle) := by
  obtain ⟨pc, attrs, hthread, rfl⟩ := step_eq_ok hstep
  simp only [Function.update_self]
  simp only [Action.Closes, List.mem_cons, List.not_mem_nil, or_false] at ha
  rcases hs with ⟨hopen, hpc⟩ | hclosing
  · rw [hopen.attrs, hpc] at hthread
    rcases ha with rfl | rfl | rfl | rfl | rfl | rfl <;>
      simp only [threadStep, Option.map_some, if_true, Option.some.injEq, Prod.mk.injEq,
        reduceCtorEq] at hthread
    obtain ⟨rfl, rfl⟩ := hthread
    exact .inl (.checked ⟨rfl, hopen.entered⟩)
  · generalize hpc : s.pc t = p at hclosing hthread
    cases hclosing with
    | checked hopen =>
        rw [hopen.attrs] at hthread
        rcases ha with rfl | rfl | rfl | rfl | rfl | rfl <;>
          simp only [threadStep, handleOf, Option.bind_some, Option.isSome_some, if_true,
            Option.some.injEq, Prod.mk.injEq, reduceCtorEq] at hthread
        obtain ⟨rfl, rfl⟩ := hthread
        exact .inl (.tested ⟨rfl, hopen.entered⟩)
    | tested hopen =>
        have hhandle : s.handle = some h := by rw [State.handle, hopen.attrs]; rfl
        rw [hopen.attrs] at hthread
        rcases ha with rfl | rfl | rfl | rfl | rfl | rfl <;>
          simp only [threadStep, handleOf, Option.bind_some, Option.some.injEq, Prod.mk.injEq,
            reduceCtorEq] at hthread
        obtain ⟨rfl, rfl⟩ := hthread
        exact .inl (.native rfl (by simp [hopen.entered, hhandle]))
    | native attrs entered =>
        rw [attrs] at hthread
        rcases ha with rfl | rfl | rfl | rfl | rfl | rfl <;>
          simp only [threadStep, Option.some.injEq, Prod.mk.injEq, reduceCtorEq] at hthread
        obtain ⟨rfl, rfl⟩ := hthread
        exact .inl (.returned rfl (by simp [entered]))
    | returned attrs entered =>
        rw [attrs] at hthread
        rcases ha with rfl | rfl | rfl | rfl | rfl | rfl <;>
          simp only [threadStep, Option.map_some, Option.some.injEq, Prod.mk.injEq,
            reduceCtorEq] at hthread
        obtain ⟨rfl, rfl⟩ := hthread
        exact .inl (.cleared rfl (by simp [entered]))
    | cleared attrs entered =>
        rw [attrs] at hthread
        rcases ha with rfl | rfl | rfl | rfl | rfl | rfl <;>
          simp only [threadStep, Option.map_some, Option.some.injEq, Prod.mk.injEq,
            reduceCtorEq] at hthread
        obtain ⟨rfl, rfl⟩ := hthread
        exact .inr ⟨⟨rfl, by simp [entered]⟩, rfl⟩

end PyObject

namespace Examples

namespace Shutdown

open PyObject

/-! ### The program -/

inductive Thread
  | main
  | loop
deriving DecidableEq

/-- Where the main thread is. -/
inductive MainPc
  /-- In the loop over the lines. -/
  | sending
  /-- Behind `stop_event.set`, in `join`. -/
  | joining
  /-- In `__exit__` of the `Rx`. -/
  | leavingRx
  | leavingTx
  | returned
deriving DecidableEq

/-- Where the thread that receives is. -/
inductive LoopPc
  /-- At the test of the event. -/
  | testing
  /-- In `recv_optional`. -/
  | receiving
  | ended
deriving DecidableEq

structure Program where
  main : MainPc
  loop : LoopPc
  /-- The event. -/
  stop : Bool
  tx : State Thread
  rx : State Thread

/-- What the threads do. -/
inductive Input
  /-- A step of `tx.send`. -/
  | send (a : Action)
  /-- The last line, an error or an interrupt ends the loop; the event is set. -/
  | setStop
  /-- `join` returns because the thread has ended. -/
  | joined
  /-- `join` returns because its time is over. -/
  | joinTimeout
  | closeRx (a : Action)
  | closeTx (a : Action)
  /-- The test of the event. -/
  | testStop
  /-- A step of `rx.recv_optional`, and whether native recv fails. -/
  | recv (a : Action) (fails : Bool)
deriving DecidableEq

/-- Behind a step of `recv_optional`: it goes on, returns, or raises and ends the thread. -/
def behindRecv (a : Action) (fails : Bool) (pc : Pc) : LoopPc :=
  if pc = .idle then if a = .leaveUse ∧ ¬ fails then .testing else .ended else .receiving

/-- A step of a thread. -/
def step (p : Program) : Input → Except Unit (Unit × Program)
  | .send a =>
      if p.main = .sending ∧ a.Uses then do
        let out ← PyObject.step p.tx (.main, a)
        return ((), { p with tx := out.2 })
      else .error ()
  | .setStop =>
      if p.main = .sending ∧ p.tx.pc .main = .idle then
        .ok ((), { p with main := .joining, stop := true })
      else .error ()
  | .joined =>
      if p.main = .joining ∧ p.loop = .ended then .ok ((), { p with main := .leavingRx })
      else .error ()
  | .joinTimeout =>
      if p.main = .joining then .ok ((), { p with main := .leavingRx }) else .error ()
  | .closeRx a =>
      if p.main = .leavingRx ∧ a.Closes then do
        let out ← PyObject.step p.rx (.main, a)
        return ((), { p with
          rx := out.2
          main := if out.2.pc .main = .idle then .leavingTx else .leavingRx })
      else .error ()
  | .closeTx a =>
      if p.main = .leavingTx ∧ a.Closes then do
        let out ← PyObject.step p.tx (.main, a)
        return ((), { p with
          tx := out.2
          main := if out.2.pc .main = .idle then .returned else .leavingTx })
      else .error ()
  | .testStop =>
      if p.loop = .testing then
        .ok ((), { p with loop := if p.stop then .ended else .receiving })
      else .error ()
  | .recv a fails =>
      if p.loop = .receiving ∧ a.Uses then do
        let out ← PyObject.step p.rx (.loop, a)
        return ((), { p with rx := out.2, loop := behindRecv a fails (out.2.pc .loop) })
      else .error ()

/-- Both objects are open, and the thread that receives has started. -/
def start (txHandle rxHandle : ℕ) : Program :=
  ⟨.sending, .testing, false, ⟨some ⟨some txHandle, false⟩, fun _ => .idle, []⟩,
    ⟨some ⟨some rxHandle, false⟩, fun _ => .idle, []⟩⟩

/-! ### What holds while it ends -/

/-- What holds of the main thread's part. -/
inductive Phase (txHandle rxHandle : ℕ) (p : Program) : Prop
  | sending (main : p.main = .sending) (tx : Open txHandle p.tx) (use : (p.tx.pc .main).Using txHandle)
      (rx : Open rxHandle p.rx) (rxPc : p.rx.pc .main = .idle)
  | joining (main : p.main = .joining) (stop : p.stop) (tx : Open txHandle p.tx)
      (txPc : p.tx.pc .main = .idle) (rx : Open rxHandle p.rx) (rxPc : p.rx.pc .main = .idle)
  | leavingRx (main : p.main = .leavingRx) (stop : p.stop) (loop : p.loop ≠ .receiving)
      (tx : Open txHandle p.tx) (txPc : p.tx.pc .main = .idle)
      (rx : Open rxHandle p.rx ∧ p.rx.pc .main = .idle ∨ Closing rxHandle p.rx (p.rx.pc .main))
  | leavingTx (main : p.main = .leavingTx) (stop : p.stop) (loop : p.loop ≠ .receiving)
      (tx : Open txHandle p.tx ∧ p.tx.pc .main = .idle ∨ Closing txHandle p.tx (p.tx.pc .main))
      (rx : Closed rxHandle p.rx) (rxPc : p.rx.pc .main = .idle)
  | returned (main : p.main = .returned) (stop : p.stop) (loop : p.loop ≠ .receiving)
      (tx : Closed txHandle p.tx) (txPc : p.tx.pc .main = .idle) (rx : Closed rxHandle p.rx)
      (rxPc : p.rx.pc .main = .idle)

/-- The invariant of the program: the thread that receives uses the `Rx` only while it receives,
and never the `Tx`. -/
structure Inv (txHandle rxHandle : ℕ) (p : Program) : Prop where
  phase : Phase txHandle rxHandle p
  txLoop : p.tx.pc .loop = .idle
  rxLoop : (p.rx.pc .loop).Using rxHandle
  idle : p.loop ≠ .receiving → p.rx.pc .loop = .idle

variable {txHandle rxHandle : ℕ} {p p' : Program}

lemma inv_start : Inv txHandle rxHandle (start txHandle rxHandle) where
  phase := .sending rfl ⟨rfl, rfl⟩ (.inl rfl) ⟨rfl, rfl⟩ rfl
  txLoop := rfl
  rxLoop := .inl rfl
  idle _ := rfl

/-- What a step does. -/
inductive StepSpec (p : Program) : Input → Program → Prop
  | send {a : Action} {tx : State Thread} (main : p.main = .sending) (uses : a.Uses)
      (tx_step : PyObject.step p.tx (.main, a) = .ok ((), tx)) :
      StepSpec p (.send a) { p with tx := tx }
  | setStop (main : p.main = .sending) (txPc : p.tx.pc .main = .idle) :
      StepSpec p .setStop { p with main := .joining, stop := true }
  | joined (main : p.main = .joining) (loop : p.loop = .ended) :
      StepSpec p .joined { p with main := .leavingRx }
  | joinTimeout (main : p.main = .joining) : StepSpec p .joinTimeout { p with main := .leavingRx }
  | closeRx {a : Action} {rx : State Thread} (main : p.main = .leavingRx) (closes : a.Closes)
      (rx_step : PyObject.step p.rx (.main, a) = .ok ((), rx)) :
      StepSpec p (.closeRx a)
        { p with rx := rx, main := if rx.pc .main = .idle then .leavingTx else .leavingRx }
  | closeTx {a : Action} {tx : State Thread} (main : p.main = .leavingTx) (closes : a.Closes)
      (tx_step : PyObject.step p.tx (.main, a) = .ok ((), tx)) :
      StepSpec p (.closeTx a)
        { p with tx := tx, main := if tx.pc .main = .idle then .returned else .leavingTx }
  | testStop (loop : p.loop = .testing) :
      StepSpec p .testStop { p with loop := if p.stop then .ended else .receiving }
  | recv {a : Action} {fails : Bool} {rx : State Thread} (loop : p.loop = .receiving)
      (uses : a.Uses) (rx_step : PyObject.step p.rx (.loop, a) = .ok ((), rx)) :
      StepSpec p (.recv a fails) { p with rx := rx, loop := behindRecv a fails (rx.pc .loop) }

lemma of_guarded {α : Type} {c : Prop} [Decidable c] {x : Except Unit α} {r : α}
    (h : (if c then x else .error ()) = .ok r) : c ∧ x = .ok r := by
  by_cases hc : c
  · rw [if_pos hc] at h
    exact ⟨hc, h⟩
  · rw [if_neg hc] at h
    cases h

/-- A step of the program that is a step of one of its objects. -/
lemma of_objStep {x : Except Unit (Unit × State Thread)} {f : State Thread → Program} {o : Unit}
    (h : (do let out ← x; return ((), f out.2)) = .ok (o, p')) :
    ∃ s, x = .ok ((), s) ∧ f s = p' := by
  cases x with
  | error e => cases h
  | ok out => exact ⟨out.2, rfl, (Prod.mk.inj (Except.ok.inj h)).2⟩

lemma step_spec {i : Input} {o : Unit} (h : step p i = .ok (o, p')) : StepSpec p i p' := by
  cases i with
  | send a =>
      obtain ⟨⟨main, uses⟩, h⟩ := of_guarded h
      obtain ⟨tx, htx, rfl⟩ := of_objStep (f := fun tx => { p with tx := tx }) h
      exact .send main uses htx
  | setStop =>
      obtain ⟨⟨main, txPc⟩, h⟩ := of_guarded h
      obtain ⟨-, rfl⟩ := Prod.mk.inj (Except.ok.inj h)
      exact .setStop main txPc
  | joined =>
      obtain ⟨⟨main, loop⟩, h⟩ := of_guarded h
      obtain ⟨-, rfl⟩ := Prod.mk.inj (Except.ok.inj h)
      exact .joined main loop
  | joinTimeout =>
      obtain ⟨main, h⟩ := of_guarded h
      obtain ⟨-, rfl⟩ := Prod.mk.inj (Except.ok.inj h)
      exact .joinTimeout main
  | closeRx a =>
      obtain ⟨⟨main, closes⟩, h⟩ := of_guarded h
      obtain ⟨rx, hrx, rfl⟩ := of_objStep (f := fun rx =>
        { p with rx := rx, main := if rx.pc .main = .idle then .leavingTx else .leavingRx }) h
      exact .closeRx main closes hrx
  | closeTx a =>
      obtain ⟨⟨main, closes⟩, h⟩ := of_guarded h
      obtain ⟨tx, htx, rfl⟩ := of_objStep (f := fun tx =>
        { p with tx := tx, main := if tx.pc .main = .idle then .returned else .leavingTx }) h
      exact .closeTx main closes htx
  | testStop =>
      obtain ⟨loop, h⟩ := of_guarded h
      obtain ⟨-, rfl⟩ := Prod.mk.inj (Except.ok.inj h)
      exact .testStop loop
  | recv a fails =>
      obtain ⟨⟨loop, uses⟩, h⟩ := of_guarded h
      obtain ⟨rx, hrx, rfl⟩ := of_objStep (f := fun rx =>
        { p with rx := rx, loop := behindRecv a fails (rx.pc .loop) }) h
      exact .recv loop uses hrx

/-- While the thread receives, the `Rx` is open. -/
lemma Inv.receiving (hinv : Inv txHandle rxHandle p) (hloop : p.loop = .receiving) :
    Open rxHandle p.rx ∧ p.rx.pc .main = .idle := by
  cases hinv.phase with
  | sending main tx use rx rxPc => exact ⟨rx, rxPc⟩
  | joining main stop tx txPc rx rxPc => exact ⟨rx, rxPc⟩
  | leavingRx main stop loop tx txPc rx => exact absurd hloop loop
  | leavingTx main stop loop tx rx rxPc => exact absurd hloop loop
  | returned main stop loop tx txPc rx rxPc => exact absurd hloop loop

/-- A step keeps the invariant, unless `join` gives up on a thread that receives. -/
lemma Inv.step (hinv : Inv txHandle rxHandle p) {i : Input}
    (hi : i = .joinTimeout → p.loop ≠ .receiving) {o : Unit} (hstep : step p i = .ok (o, p')) :
    Inv txHandle rxHandle p' := by
  have hne : (Thread.loop : Thread) ≠ .main := by decide
  cases step_spec hstep with
  | send main uses htx =>
      cases hinv.phase with
      | sending _ tx use rx rxPc =>
          obtain ⟨htx', huse⟩ := tx.use use uses htx
          exact ⟨.sending main htx' huse rx rxPc, (step_pc htx _ hne).trans hinv.txLoop,
            hinv.rxLoop, hinv.idle⟩
      | _ => simp_all
  | setStop main txPc =>
      cases hinv.phase with
      | sending _ tx use rx rxPc =>
          exact ⟨.joining rfl rfl tx txPc rx rxPc, hinv.txLoop, hinv.rxLoop, hinv.idle⟩
      | _ => simp_all
  | joined main loop =>
      cases hinv.phase with
      | joining _ stop tx txPc rx rxPc =>
          exact ⟨.leavingRx rfl stop (by simp [loop]) tx txPc (.inl ⟨rx, rxPc⟩), hinv.txLoop,
            hinv.rxLoop, hinv.idle⟩
      | _ => simp_all
  | joinTimeout main =>
      cases hinv.phase with
      | joining _ stop tx txPc rx rxPc =>
          exact ⟨.leavingRx rfl stop (hi rfl) tx txPc (.inl ⟨rx, rxPc⟩), hinv.txLoop,
            hinv.rxLoop, hinv.idle⟩
      | _ => simp_all
  | @closeRx a rx main closes hrx =>
      cases hinv.phase with
      | leavingRx _ stop loop tx txPc rxState =>
          have hloop : rx.pc .loop = .idle := (step_pc hrx _ hne).trans (hinv.idle loop)
          refine ⟨?_, hinv.txLoop, .inl hloop, fun _ => hloop⟩
          rcases close_step rxState closes hrx with hclosing | ⟨hclosed, hidle⟩
          · exact .leavingRx (if_neg hclosing.ne_idle) stop loop tx txPc (.inr hclosing)
          · exact .leavingTx (if_pos hidle) stop loop (.inl ⟨tx, txPc⟩) hclosed hidle
      | _ => simp_all
  | @closeTx a tx main closes htx =>
      cases hinv.phase with
      | leavingTx _ stop loop txState rx rxPc =>
          have hloop : tx.pc .loop = .idle := (step_pc htx _ hne).trans hinv.txLoop
          refine ⟨?_, hloop, hinv.rxLoop, hinv.idle⟩
          rcases close_step txState closes htx with hclosing | ⟨hclosed, hidle⟩
          · exact .leavingTx (if_neg hclosing.ne_idle) stop loop (.inr hclosing) rx rxPc
          · exact .returned (if_pos hidle) stop loop hclosed hidle rx rxPc
      | _ => simp_all
  | testStop loop =>
      have hidle := hinv.idle (by simp [loop])
      refine ⟨?_, hinv.txLoop, hinv.rxLoop, fun _ => hidle⟩
      -- behind the event, the test ends the thread
      cases hinv.phase with
      | sending main tx use rx rxPc => exact .sending main tx use rx rxPc
      | joining main stop tx txPc rx rxPc => exact .joining main stop tx txPc rx rxPc
      | leavingRx main stop _ tx txPc rx =>
          exact .leavingRx main stop (by simp [stop]) tx txPc rx
      | leavingTx main stop _ tx rx rxPc =>
          exact .leavingTx main stop (by simp [stop]) tx rx rxPc
      | returned main stop _ tx txPc rx rxPc =>
          exact .returned main stop (by simp [stop]) tx txPc rx rxPc
  | @recv a fails rx loop uses hrx =>
      obtain ⟨hopen, hmain⟩ := hinv.receiving loop
      obtain ⟨hopen', huse⟩ := hopen.use hinv.rxLoop uses hrx
      have hmain' : rx.pc .main = .idle := (step_pc hrx _ hne.symm).trans hmain
      refine ⟨?_, hinv.txLoop, huse, fun hleft => ?_⟩
      · cases hinv.phase with
        | sending main tx use _ _ => exact .sending main tx use hopen' hmain'
        | joining main stop tx txPc _ _ => exact .joining main stop tx txPc hopen' hmain'
        | _ => simp_all
      · by_contra hbusy
        exact hleft (if_neg hbusy)

/-! ### Safety -/

/-- The objects are used as they should be. -/
def Sound (p : Program) : Prop := Safe p.tx ∧ Safe p.rx

lemma safe_of_open {h : ℕ} {s : State Thread} (hs : Open h s) : Safe s := by
  rw [safe_iff, hs.entered]
  exact ⟨.nil, fun _ _ _ => List.not_mem_nil⟩

/-- Behind native close no thread is in a call. -/
lemma safe_of_entered {h : ℕ} {s : State Thread} (hs : s.entered = [h])
    (hpc : ∀ t, (s.pc t).uses = none) : Safe s := by
  rw [safe_iff, hs]
  exact ⟨List.nodup_singleton h, fun t x hx => by simp [hpc t] at hx⟩

lemma safe_of_closing {h : ℕ} {s : State Thread} (hs : Closing h s (s.pc .main))
    (hloop : s.pc .loop = .idle) : Safe s := by
  have hpc : (s.pc .main).uses = none → ∀ t, (s.pc t).uses = none := by
    intro hmain t
    cases t
    · exact hmain
    · rw [hloop]
      rfl
  generalize hp : s.pc .main = pc at hs hpc
  cases hs with
  | checked hopen => exact safe_of_open hopen
  | tested hopen => exact safe_of_open hopen
  | native attrs entered => exact safe_of_entered entered (hpc rfl)
  | returned attrs entered => exact safe_of_entered entered (hpc rfl)
  | cleared attrs entered => exact safe_of_entered entered (hpc rfl)

lemma safe_of_closed {h : ℕ} {s : State Thread} (hs : Closed h s) (hmain : s.pc .main = .idle)
    (hloop : s.pc .loop = .idle) : Safe s := by
  refine safe_of_entered hs.entered fun t => ?_
  cases t
  · rw [hmain]
    rfl
  · rw [hloop]
    rfl

lemma Inv.sound (hinv : Inv txHandle rxHandle p) : Sound p := by
  cases hinv.phase with
  | sending main tx use rx rxPc => exact ⟨safe_of_open tx, safe_of_open rx⟩
  | joining main stop tx txPc rx rxPc => exact ⟨safe_of_open tx, safe_of_open rx⟩
  | leavingRx main stop loop tx txPc rx =>
      refine ⟨safe_of_open tx, ?_⟩
      rcases rx with ⟨rx, -⟩ | rx
      · exact safe_of_open rx
      · exact safe_of_closing rx (hinv.idle loop)
  | leavingTx main stop loop tx rx rxPc =>
      refine ⟨?_, safe_of_closed rx rxPc (hinv.idle loop)⟩
      rcases tx with ⟨tx, -⟩ | tx
      · exact safe_of_open tx
      · exact safe_of_closing tx hinv.txLoop
  | returned main stop loop tx txPc rx rxPc =>
      exact ⟨safe_of_closed tx txPc hinv.txLoop, safe_of_closed rx rxPc (hinv.idle loop)⟩

/-- Both objects are closed at the end. -/
lemma Inv.closed (hinv : Inv txHandle rxHandle p) (hmain : p.main = .returned) :
    Closed txHandle p.tx ∧ Closed rxHandle p.rx := by
  cases hinv.phase with
  | returned _ stop loop tx txPc rx rxPc => exact ⟨tx, rx⟩
  | _ => simp_all

/-- `join` gives up only on a thread that does not receive. -/
def Waits (p : Program) (i : Input) : Prop := i = .joinTimeout → p.loop ≠ .receiving

instance (p : Program) (i : Input) : Decidable (Waits p i) := inferInstanceAs (Decidable (_ → _))

/-! ### Without waiting -/

/-- The program can go on to a state that is not sound. -/
def Endangered (p : Program) : Prop :=
  ∃ is r, run step p is = .ok r ∧ ∃ e ∈ r.events, ¬ Sound e.after

lemma Endangered.cons {i : Input} {o : Unit} (hstep : step p i = .ok (o, p'))
    (h : Endangered p') : Endangered p := by
  obtain ⟨is, r, hr, e, he, hno⟩ := h
  exact ⟨i :: is, _, run_cons hstep hr, e, List.mem_cons_of_mem _ he, hno⟩

lemma endangered_of_step {i : Input} {o : Unit} (hstep : step p i = .ok (o, p'))
    (h : ¬ Sound p') : Endangered p :=
  ⟨[i], _, run_cons hstep rfl, _, List.mem_cons_self, h⟩

/-- A step of `close` in the main thread. -/
lemma step_closeRx (hmain : p.main = .leavingRx) {a : Action} (ha : a.Closes) {pc : Pc}
    {attrs : Option Attrs} (hthread : threadStep p.rx.attrs (p.rx.pc .main) a = some (pc, attrs)) :
    step p (.closeRx a) = .ok ((), { p with
      rx := ⟨attrs, Function.update p.rx.pc .main pc,
        if a = .enterClose then p.rx.entered ++ p.rx.handle.toList else p.rx.entered⟩
      main := if pc = .idle then .leavingTx else .leavingRx }) := by
  have hobj : PyObject.step p.rx (.main, a) = .ok ((), ⟨attrs, Function.update p.rx.pc .main pc,
      if a = .enterClose then p.rx.entered ++ p.rx.handle.toList else p.rx.entered⟩) := by
    simp only [PyObject.step, hthread]
  have hcond : p.main = .leavingRx ∧ a.Closes := ⟨hmain, ha⟩
  simp only [step, if_pos hcond, hobj, bind, Except.bind, pure, Except.pure, Function.update_self]

/-- A step of `recv` in the thread that receives. -/
lemma step_recv (hloop : p.loop = .receiving) {a : Action} (ha : a.Uses) (fails : Bool) {pc : Pc}
    {attrs : Option Attrs} (hthread : threadStep p.rx.attrs (p.rx.pc .loop) a = some (pc, attrs)) :
    step p (.recv a fails) = .ok ((), { p with
      rx := ⟨attrs, Function.update p.rx.pc .loop pc,
        if a = .enterClose then p.rx.entered ++ p.rx.handle.toList else p.rx.entered⟩
      loop := behindRecv a fails pc }) := by
  have hobj : PyObject.step p.rx (.loop, a) = .ok ((), ⟨attrs, Function.update p.rx.pc .loop pc,
      if a = .enterClose then p.rx.entered ++ p.rx.handle.toList else p.rx.entered⟩) := by
    simp only [PyObject.step, hthread]
  have hcond : p.loop = .receiving ∧ a.Uses := ⟨hloop, ha⟩
  simp only [step, if_pos hcond, hobj, bind, Except.bind, pure, Except.pure, Function.update_self]

/-- A step of `close` in the main thread that enters nothing. -/
lemma quiet_closeRx {h : ℕ} (hmain : p.main = .leavingRx) (hopen : Open h p.rx) {a : Action}
    (ha : a.Closes) (hne : a ≠ .enterClose) {pc : Pc} (hpc : pc ≠ .idle)
    (hthread : threadStep p.rx.attrs (p.rx.pc .main) a = some (pc, p.rx.attrs)) :
    ∃ p', step p (.closeRx a) = .ok ((), p') ∧ p'.main = .leavingRx ∧ Open h p'.rx ∧
      p'.rx.pc .main = pc ∧ p'.rx.pc .loop = p.rx.pc .loop := by
  refine ⟨_, step_closeRx hmain ha hthread, if_neg hpc, ⟨hopen.attrs, ?_⟩, ?_, ?_⟩
  · simp only [if_neg hne, hopen.entered]
  · simp only [Function.update_self]
  · simp [Function.update_of_ne]

/-- The main thread can close an `Rx` in use. -/
lemma endangered_inUse {h : ℕ} (hmain : p.main = .leavingRx) (hopen : Open h p.rx)
    (hidle : p.rx.pc .main = .idle) (huse : p.rx.pc .loop = .inUse (some h)) : Endangered p := by
  obtain ⟨p₁, hstep₁, hmain₁, hopen₁, hpc₁, hloop₁⟩ := quiet_closeRx (a := .testClose) hmain hopen
    (by decide) (by decide) (show Pc.closeChecked ≠ .idle by decide)
    (by rw [hopen.attrs, hidle]; rfl)
  obtain ⟨p₂, hstep₂, hmain₂, hopen₂, hpc₂, hloop₂⟩ := quiet_closeRx (a := .testHandle) hmain₁ hopen₁
    (by decide) (by decide) (show Pc.handleTested ≠ .idle by decide)
    (by rw [hopen₁.attrs, hpc₁]; rfl)
  have hthread : threadStep p₂.rx.attrs (p₂.rx.pc .main) .enterClose =
      some (.closing (some h), some ⟨some h, false⟩) := by rw [hopen₂.attrs, hpc₂]; rfl
  refine .cons hstep₁ (.cons hstep₂ (endangered_of_step (step_closeRx hmain₂ (by decide) hthread) ?_))
  rintro ⟨-, -, hsafe⟩
  refine hsafe .loop h ?_ ?_
  · simp only
    rw [Function.update_of_ne (by decide), hloop₂, hloop₁, huse]
  · have hhandle : p₂.rx.handle = some h := by rw [State.handle, hopen₂.attrs]; rfl
    simp [hhandle]

/-- A thread that receives can come to native recv. -/
lemma endangered_receiving {h : ℕ} (hmain : p.main = .leavingRx) (hopen : Open h p.rx)
    (hidle : p.rx.pc .main = .idle) (hloop : p.loop = .receiving)
    (huse : (p.rx.pc .loop).Using h) : Endangered p := by
  have hnative : ∀ p : Program, p.main = .leavingRx → Open h p.rx → p.rx.pc .main = .idle →
      p.loop = .receiving → p.rx.pc .loop = .useChecked → Endangered p := by
    intro p hmain hopen hidle hloop hchecked
    have hthread : threadStep p.rx.attrs (p.rx.pc .loop) .enterUse =
        some (.inUse (some h), p.rx.attrs) := by rw [hchecked, hopen.attrs]; rfl
    refine .cons (step_recv hloop (by decide) false hthread)
      (endangered_inUse hmain ⟨hopen.attrs, ?_⟩ ?_ ?_)
    · simp only [reduceCtorEq, if_false, hopen.entered]
    · simpa [Function.update_of_ne] using hidle
    · simp only [Function.update_self]
  rcases huse with huse | huse | huse
  · have hthread : threadStep p.rx.attrs (p.rx.pc .loop) .testUse =
        some (.useChecked, p.rx.attrs) := by rw [huse, hopen.attrs]; rfl
    refine .cons (step_recv hloop (by decide) false hthread)
      (hnative _ hmain ⟨hopen.attrs, ?_⟩ ?_ rfl ?_)
    · simp only [reduceCtorEq, if_false, hopen.entered]
    · simpa [Function.update_of_ne] using hidle
    · simp only [Function.update_self]
  · exact hnative p hmain hopen hidle hloop huse
  · exact endangered_inUse hmain hopen hidle huse

/-- Behind `join` the main thread does not come back to it. -/
def Left (p : Program) : Prop := p.main ≠ .sending ∧ p.main ≠ .joining

lemma Left.step (hleft : Left p) {i : Input} {o : Unit} (hstep : step p i = .ok (o, p')) :
    i ≠ .joinTimeout ∧ Left p' := by
  cases step_spec hstep with
  | send main | setStop main => exact absurd main hleft.1
  | joined main | joinTimeout main => exact absurd main hleft.2
  | closeRx main => exact ⟨by simp, by simp only [Left]; split <;> simp⟩
  | closeTx main => exact ⟨by simp, by simp only [Left]; split <;> simp⟩
  | testStop | recv => exact ⟨by simp, hleft⟩

/-- **Leaving the program.** In every run in which `join` returns only when the other thread does
not receive any more, native close is entered once for each object and never while a native call
uses it, and at the end both objects are closed.  Where `join` gives up on a thread that receives,
and only there, the program can go on to a use of the `Rx` behind its close. -/
theorem shutdown_sound (txHandle rxHandle : ℕ) {is : List Input} {r : Run Program Input Unit}
    (hr : run step (start txHandle rxHandle) is = .ok r)
    (hwaits : ∀ e ∈ r.events, Waits e.before e.input) :
    (∀ e ∈ r.events, Sound e.after ∧ (e.after.main = .returned →
      Closed txHandle e.after.tx ∧ Closed rxHandle e.after.rx)) ∧
    ∀ p', step r.final .joinTimeout = .ok ((), p') →
      (r.final.loop = .receiving ↔ Endangered p') := by
  obtain ⟨hall, hfinal⟩ := run_keeps (Inv txHandle rxHandle) Waits
    (fun _ _ _ _ hinv hwait hstep => hinv.step hwait hstep) inv_start hr hwaits
  refine ⟨fun e he => ⟨(hall e he).sound, (hall e he).closed⟩, fun p' hstep => ?_⟩
  constructor
  · intro hloop
    obtain ⟨hopen, hidle⟩ := hfinal.receiving hloop
    cases step_spec hstep with
    | joinTimeout main => exact endangered_receiving rfl hopen hidle hloop hfinal.rxLoop
  · rintro ⟨is', r', hr', e, he, hno⟩
    by_contra hloop
    have hleft : Left p' := by
      cases step_spec hstep with
      | joinTimeout main => exact ⟨by simp, by simp⟩
    -- behind `join` every step keeps the invariant
    obtain ⟨hall', -⟩ := run_keeps (fun p => Inv txHandle rxHandle p ∧ Left p) (fun _ _ => True)
      (fun _ _ _ _ h _ hstep => ⟨h.1.step (fun hi => absurd hi (h.2.step hstep).1) hstep,
        (h.2.step hstep).2⟩) ⟨hfinal.step (fun _ => hloop) hstep, hleft⟩ hr' fun _ _ => trivial
    exact hno (hall' e he).1.sound

/-- A line is sent while the other thread receives. -/
def oneLineSent : List Input :=
  [.testStop, .recv .testUse false, .send .testUse, .recv .enterUse false, .send .enterUse,
    .send .leaveUse, .setStop, .recv .leaveUse false, .testStop, .joined]

def closeSteps : List Action :=
  [.testClose, .testHandle, .enterClose, .leaveClose, .clearHandle, .setClosed]

/-- The input ends behind the line. -/
def oneLine : List Input :=
  oneLineSent ++ (closeSteps.map Input.closeRx ++ closeSteps.map Input.closeTx)

theorem oneLine_sound : ∃ r, run step (start 7 8) oneLine = .ok r ∧ ∀ e ∈ r.events, Sound e.after := by
  have hwaits : ∀ r ∈ (run step (start 7 8) oneLine).toOption, ∀ e ∈ r.events,
      Waits e.before e.input := by decide +kernel
  have hok : (run step (start 7 8) oneLine).isOk := by decide +kernel
  cases hrun : run step (start 7 8) oneLine with
  | error => simp [hrun, Except.isOk, Except.toBool] at hok
  | ok r =>
      refine ⟨r, rfl, fun e he => ((shutdown_sound 7 8 hrun (hwaits r ?_)).1 e he).1⟩
      rw [hrun]
      rfl

end Shutdown

end Examples

end WfbRs
