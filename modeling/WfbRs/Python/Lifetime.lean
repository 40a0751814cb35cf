import WfbRs.CApi.Independence
import WfbRs.Handles
import WfbRs.Python.Session

/-!
# The life of a `Tx` in Python (`api.py`)

A `Tx` is constructed, used and closed by any calls of one thread, and in the end it is kept, or its
finalizer runs.  The objects of a process run interleaved over one descriptor table, with components
that open and close descriptors of their own.
-/

namespace WfbRs

open Rust Descriptor

namespace Python

/-! ### Calls -/

/-- A call on a `Tx`.  A call of `__exit__` is one of `close`. -/
inductive TxCall
  | send (payload : List UInt8) (seq : ℤ)
  | close
deriving DecidableEq

/-- What a call hands to `sendmsg`, with what that answers, and what the call returns or raises. -/
structure TxAnswer where
  sent : Option (List (List UInt8) × Except SysError ℤ)
  result : Except PyError Unit

/-- What is handed over. -/
def TxAnswer.iovecs (answer : TxAnswer) : Option (List (List UInt8)) := answer.sent.map Prod.fst

@[simp] lemma TxAnswer.iovecs_mk (sent : Option (List (List UInt8) × Except SysError ℤ))
    (result : Except PyError Unit) : (TxAnswer.mk sent result).iovecs = sent.map Prod.fst := rfl

/-- `Tx.close`. -/
def Tx.close (tx : Tx) : SysProg (Except PyError Unit × Tx) := do
  if tx.closed then return (.ok (), tx)
  match tx.handle with
  | none => return (.ok (), { tx with closed := true })
  | some handle =>
      let code ← wfbTxClose (some handle)
      return (raiseForCode code "wfb_tx_close", ⟨none, true⟩)

/-- `Tx.__del__`: what `close` raises is ignored. -/
def Tx.del (tx : Tx) : SysProg Tx := do
  let (_, tx) ← tx.close
  return tx

def Tx.call (tx : Tx) : TxCall → SysProg (TxAnswer × Tx)
  | .send payload seq =>
      -- the system is asked by the calls that hand something over
      match (tx.send payload seq (.ok 0)).iovecs with
      | none =>
          let out := tx.send payload seq (.ok 0)
          return (⟨none, out.result⟩, out.tx)
      | some _ => .call fun rc =>
          let out := tx.send payload seq rc
          return (⟨out.iovecs.map fun iovecs => (iovecs, rc), out.result⟩, out.tx)
  | .close => do
      let (result, tx) ← tx.close
      return (⟨none, result⟩, tx)

/-- Calls one after the other; what one raises is caught. -/
def Tx.calls (tx : Tx) : List TxCall → SysProg (List TxAnswer × Tx)
  | [] => return ([], tx)
  | c :: cs => do
      let (answer, tx) ← tx.call c
      let (answers, tx) ← tx.calls cs
      return (answer :: answers, tx)

/-- An object: the arguments of its constructor, the calls on it, and whether its finalizer runs. -/
structure TxObject where
  args : TxArgs
  calls : List TxCall
  dropped : Bool

/-- What is behind the constructor. -/
def TxObject.use (o : TxObject) (tx : Tx) : SysProg (Except PyError (List TxAnswer × Tx)) := do
  let (answers, tx) ← tx.calls o.calls
  if o.dropped then
    let tx ← tx.del
    return .ok (answers, tx)
  else return .ok (answers, tx)

/-- An object whose constructor raises has no handle, so that its finalizer closes nothing. -/
def TxObject.prog (o : TxObject) : SysProg (Except PyError (List TxAnswer × Tx)) := do
  match ← Tx.init o.args.capi o.args.iface o.args.streamId o.args.frameType o.args.mcsIndex
      o.args.bandwidth with
  | .error e => return .error e
  | .ok tx => o.use tx

/-! ### What a `Tx` is for -/

/-- What a call may answer: a `send` that hands its frame over raises exactly when `sendmsg` fails.
The state is the number of frames handed over, or `none` behind a close. -/
inductive TxServes (cfg : WfbTxConfig) : Option ℕ → TxCall → TxAnswer → Option ℕ → Prop
  | tooLarge {k : ℕ} {payload : List UInt8} {seq : ℤ} (large : computeMaxPayload < payload.length) :
      TxServes cfg (some k) (.send payload seq)
        ⟨none, .error (.valueError s!"payload too large: {payload.length} > {computeMaxPayload}")⟩
        (some k)
  | sent {k : ℕ} {payload : List UInt8} {seq n : ℤ} (fits : payload.length ≤ computeMaxPayload) :
      TxServes cfg (some k) (.send payload seq)
        ⟨some (CApi.numbered cfg k (payload, cUint32 seq), .ok n), .ok ()⟩ (some (k + 1))
  | failed {k : ℕ} {payload : List UInt8} {seq : ℤ} {e : SysError}
      (fits : payload.length ≤ computeMaxPayload) :
      TxServes cfg (some k) (.send payload seq)
        ⟨some (CApi.numbered cfg k (payload, cUint32 seq), .error e),
          .error (.wfbRsError .io "wfb_tx_send failed with error code 3" 3)⟩ (some (k + 1))
  | closes {k : ℕ} : TxServes cfg (some k) .close ⟨none, .ok ()⟩ none
  | isClosed {payload : List UInt8} {seq : ℤ} :
      TxServes cfg none (.send payload seq) ⟨none, .error (.runtimeError "Tx handle is closed")⟩ none
  | closedAgain : TxServes cfg none .close ⟨none, .ok ()⟩ none

/-- What the calls of a life may answer. -/
inductive TxServed (cfg : WfbTxConfig) : Option ℕ → List TxCall → List TxAnswer → Option ℕ → Prop
  | nil (sent : Option ℕ) : TxServed cfg sent [] [] sent
  | cons {sent sent' sent'' : Option ℕ} {c : TxCall} {answer : TxAnswer} {cs : List TxCall}
      {answers : List TxAnswer} (serves : TxServes cfg sent c answer sent')
      (rest : TxServed cfg sent' cs answers sent'') :
      TxServed cfg sent (c :: cs) (answer :: answers) sent''

/-- What a constructor may raise. -/
inductive TxArgs.Raises (a : TxArgs) : PyError → Prop
  | noIface (iface : a.iface = "") : a.Raises (.valueError "iface must not be empty")
  | notLoaded {e : PyError} (iface : a.iface ≠ "") (capi : a.capi = .error e) : a.Raises e
  | refused (capi : a.capi = .ok ()) (opens : ¬ a.Opens) :
      a.Raises (.wfbRsError .invalidArgument "wfb_tx_open failed with error code 2" 2)
  | failed (iface : a.iface ≠ "") (capi : a.capi = .ok ()) :
      a.Raises (.wfbRsError .io "wfb_tx_open failed with error code 3" 3)

/-- An object in such a state, and the descriptor that it holds. -/
inductive Stands (cfg : WfbTxConfig) : Option ℕ → Tx → Option ℕ → Prop
  | opened {k : ℕ} {handle : WfbTx} (numbered : WfbTx.Numbered cfg k handle) :
      Stands cfg (some k) ⟨some handle, false⟩ (some handle.fd)
  | closed : Stands cfg none ⟨none, true⟩ none

/-! ### One call -/

section

variable {cfg : WfbTxConfig} {k : ℕ} {handle : WfbTx} {payload : List UInt8}

/-- A payload that fits becomes the next frame of the stream. -/
lemma Tx.send_numbered (h : WfbTx.Numbered cfg k handle)
    (hlen : payload.length ≤ computeMaxPayload) (seq : ℤ) (rc : Except SysError ℤ) :
    ∃ handle', WfbTx.Numbered cfg (k + 1) handle' ∧ handle'.fd = handle.fd ∧
      Tx.send ⟨some handle, false⟩ payload seq rc =
        ⟨⟨some handle', false⟩, some (CApi.numbered cfg k (payload, cUint32 seq)),
          raiseForCode (if rc.isOk then wfbRsOk else wfbRsErrIo) "wfb_tx_send"⟩ := by
  have hcall : WfbTx.Call.Fits ⟨payload, cUint32 seq, rc⟩ := hlen
  obtain ⟨out, handle', hstep, hiovecs, hnumbered, -⟩ := WfbTx.sendStep_fits h hcall
  obtain ⟨out', hsend, hret⟩ := bind_eq_ok.mp hstep
  obtain ⟨rfl, rfl⟩ := Prod.mk.inj (Except.ok.inj hret)
  obtain ⟨out'', hsend', -, hfd⟩ := WfbTx.send_ok h.toHeaderInv payload (cUint32 seq) rc
  obtain rfl : out' = out'' := Except.ok.inj (hsend.symm.trans hsend')
  refine ⟨_, hnumbered, hfd, ?_⟩
  rw [Tx.send_native hlen hsend, hiovecs]
  rfl

/-- A close gives the descriptor back. -/
lemma Tx.owns_close (handle : WfbTx) :
    (Tx.close ⟨some handle, false⟩).Owns (fun r held => r = (.ok (), ⟨none, true⟩) ∧ held = none)
      (some handle.fd) :=
  ⟨rfl, rfl, rfl⟩

/-- A call is served as the state says, and the object holds its descriptor until a close. -/
lemma Stands.call {sent : Option ℕ} {tx : Tx} {held : Option ℕ} (h : Stands cfg sent tx held)
    (c : TxCall) : (tx.call c).Owns
      (fun r held' => ∃ sent', TxServes cfg sent c r.1 sent' ∧ Stands cfg sent' r.2 held') held := by
  cases h with
  | closed =>
      cases c with
      | send payload seq => exact ⟨none, .isClosed, .closed⟩
      | close => exact ⟨none, .closedAgain, .closed⟩
  | @opened k handle numbered =>
      cases c with
      | close =>
          refine (Tx.owns_close handle).bind ?_
          rintro _ _ ⟨rfl, rfl⟩
          exact ⟨none, .closes, .closed⟩
      | send payload seq =>
          by_cases hlen : payload.length ≤ computeMaxPayload
          · obtain ⟨_, -, -, hreach⟩ := Tx.send_numbered numbered hlen seq (.ok 0)
            simp only [Tx.call, hreach]
            intro rc
            obtain ⟨handle', hnumbered, hfd, hsend⟩ := Tx.send_numbered numbered hlen seq rc
            simp only [hsend]
            refine ⟨some (k + 1), ?_, hfd ▸ .opened hnumbered⟩
            cases rc with
            | ok n => exact .sent hlen
            | error e => exact .failed hlen
          · have hlarge : payload.length > wfbRsMaxPayload := Nat.lt_of_not_le hlen
            have hsend : Tx.send ⟨some handle, false⟩ payload seq (.ok 0) =
                ⟨⟨some handle, false⟩, none, .error (.valueError
                  s!"payload too large: {payload.length} > {wfbRsMaxPayload}")⟩ := by
              rw [Tx.send, if_neg (by simp), if_pos hlarge]
            simp only [Tx.call, hsend]
            exact ⟨some k, .tooLarge hlarge, .opened numbered⟩

/-- So are calls one after the other. -/
lemma Stands.calls {sent : Option ℕ} {tx : Tx} {held : Option ℕ} (h : Stands cfg sent tx held)
    (cs : List TxCall) : (tx.calls cs).Owns
      (fun r held' => ∃ sent', TxServed cfg sent cs r.1 sent' ∧ Stands cfg sent' r.2 held')
        held := by
  induction cs generalizing sent tx held with
  | nil => exact ⟨sent, .nil sent, h⟩
  | cons c cs ih =>
      refine (h.call c).bind ?_
      rintro ⟨answer, tx'⟩ held' ⟨sent', hserves, hstands⟩
      refine (ih hstands).bind ?_
      rintro ⟨answers, tx''⟩ held'' ⟨sent'', hserved, hstands'⟩
      exact ⟨sent'', .cons hserves hserved, hstands'⟩

/-- The finalizer closes what is still open. -/
lemma Stands.del {sent : Option ℕ} {tx : Tx} {held : Option ℕ} (h : Stands cfg sent tx held) :
    tx.del.Owns (fun tx' held' => tx' = ⟨none, true⟩ ∧ held' = none) held := by
  cases h with
  | closed => exact ⟨rfl, rfl⟩
  | opened numbered => exact ⟨rfl, rfl, rfl⟩

end

/-! ### The constructor -/

/-- What native open leaves: a transmitter that is held, or a code and nothing. -/
lemma TxArgs.owns_open (a : TxArgs) :
    (ffiOpen (some (encode a.iface)) (fun name => WfbTx.open (a.config name)) none).Owns
      (fun out held =>
        (∃ name fd, cIface (some (encode a.iface)) = .ok name ∧ WfbTx.Accepts (a.config name) ∧
          out = ⟨wfbRsOk, some (WfbTx.opened (a.config name) fd)⟩ ∧ held = some fd) ∨
        out.handle = none ∧ held = none ∧
          (out.code = wfbRsErrIo ∨ out.code = wfbRsErrInvalidArgument ∧ ¬ a.Opens)) none := by
  unfold ffiOpen
  cases hname : cIface (some (encode a.iface)) with
  | error code =>
      have hno : ¬ a.Opens := by
        rintro ⟨-, -, name, hname', -⟩
        rw [hname] at hname'
        cases hname'
      rcases CApi.cIface_error hname with ⟨hnull, -⟩ | ⟨-, rfl⟩
      · cases hnull
      · exact .inr ⟨rfl, rfl, .inr ⟨rfl, hno⟩⟩
  | ok name =>
      refine ((WfbTx.owns_open (a.config name)).of_returns fun r hr => hr).bind ?_
      rintro (e | opened) held ⟨hheld, hreturns⟩
      · refine .inr ⟨rfl, hheld, ?_⟩
        rcases WfbTx.returns_open_error hreturns with ⟨errno, rfl⟩ | ⟨⟨msg, rfl⟩, hacc⟩
        · exact .inl rfl
        · refine .inr ⟨rfl, ?_⟩
          rintro ⟨-, -, name', hname', hacc'⟩
          obtain rfl : name = name' := Except.ok.inj (hname.symm.trans hname')
          exact hacc hacc'
      · obtain ⟨fd, rfl, rfl, hacc⟩ := hheld
        exact .inl ⟨name, fd, rfl, hacc, rfl, rfl⟩

/-- What the constructor leaves. -/
lemma TxArgs.owns_init (a : TxArgs) :
    (Tx.init a.capi a.iface a.streamId a.frameType a.mcsIndex a.bandwidth).Owns
      (fun r held => match r with
        | .ok tx => ∃ name, cIface (some (encode a.iface)) = .ok name ∧
            WfbTx.Accepts (a.config name) ∧ Stands (a.config name) (some 0) tx held
        | .error e => a.Raises e ∧ held = none) none := by
  unfold Tx.init construct
  by_cases hiface : a.iface = ""
  · rw [if_pos hiface]
    exact ⟨.noIface hiface, rfl⟩
  rw [if_neg hiface]
  cases hcapi : a.capi with
  | error e => exact ⟨.notLoaded hiface hcapi, rfl⟩
  | ok _ =>
      refine a.owns_open.bind ?_
      rintro ⟨code, opened⟩ held (⟨name, fd, hname, hacc, hout, rfl⟩ | ⟨rfl, rfl, rfl | ⟨rfl, hno⟩⟩)
      · cases hout
        exact ⟨name, hname, hacc, .opened (WfbTx.opened_numbered _ fd)⟩
      · exact ⟨.failed hiface hcapi, rfl⟩
      · exact ⟨.refused hcapi hno, rfl⟩

/-! ### What a life hands over -/

/-- The messages that fit, in front of the first close. -/
def messages : List TxCall → List (List UInt8 × UInt32)
  | [] => []
  | .close :: _ => []
  | .send payload seq :: cs =>
      if payload.length ≤ computeMaxPayload then (payload, cUint32 seq) :: messages cs
      else messages cs

section

variable {cfg : WfbTxConfig} {cs : List TxCall} {answers : List TxAnswer} {sent : Option ℕ}

/-- Behind a close nothing is handed over. -/
lemma TxServed.closed (h : TxServed cfg none cs answers sent) :
    sent = none ∧ ∀ answer ∈ answers, answer.iovecs = none := by
  generalize hstart : (none : Option ℕ) = start at h
  induction h with
  | nil sent =>
      subst hstart
      exact ⟨rfl, by simp⟩
  | cons serves rest ih =>
      subst hstart
      cases serves with
      | isClosed | closedAgain =>
          obtain ⟨hsent, hall⟩ := ih rfl
          exact ⟨hsent, List.forall_mem_cons.mpr ⟨rfl, hall⟩⟩

/-- What is handed over are the messages, numbered from the state on. -/
lemma TxServed.handed {k : ℕ} (h : TxServed cfg (some k) cs answers sent) :
    answers.filterMap TxAnswer.iovecs =
        (messages cs).mapIdx (fun i m => CApi.numbered cfg (k + i) m) ∧
      (sent = none ↔ .close ∈ cs) := by
  generalize hstart : some k = start at h
  induction h generalizing k with
  | nil sent =>
      subst hstart
      simp [messages]
  | cons serves rest ih =>
      subst hstart
      cases serves with
      | tooLarge large =>
          obtain ⟨hanswers, hsent⟩ := ih rfl
          rw [messages, if_neg (Nat.not_le_of_lt large), ← hanswers]
          exact ⟨rfl, by simp [hsent]⟩
      | sent fits | failed fits =>
          obtain ⟨hanswers, hsent⟩ := ih rfl
          rw [messages, if_pos fits, List.mapIdx_cons]
          simp [hanswers, hsent, Nat.add_assoc, Nat.add_comm 1]
      | closes =>
          obtain ⟨hsent, hall⟩ := rest.closed
          rw [messages]
          exact ⟨by simpa using hall, by simp [hsent]⟩

end

/-! ### The objects of a process -/

/-- How a life ends. -/
def TxObject.Ends (o : TxObject) : Except PyError (List TxAnswer × Tx) → Option ℕ → Prop
  | .error e, held => o.args.Raises e ∧ held = none
  | .ok (answers, _), held => ∃ name sent, cIface (some (encode o.args.iface)) = .ok name ∧
      WfbTx.Accepts (o.args.config name) ∧
      TxServed (o.args.config name) (some 0) o.calls answers sent ∧
      (held = none ↔ o.dropped ∨ .close ∈ o.calls)

lemma TxObject.owns (o : TxObject) : o.prog.Owns o.Ends none := by
  refine o.args.owns_init.bind ?_
  rintro (e | tx) held h
  · exact h
  obtain ⟨name, hname, hacc, hstands⟩ := h
  refine (hstands.calls o.calls).bind ?_
  rintro ⟨answers, tx'⟩ held' ⟨sent, hserved, hstands'⟩
  cases hdropped : o.dropped with
  | true =>
      refine hstands'.del.bind ?_
      rintro _ _ ⟨rfl, rfl⟩
      exact ⟨name, sent, hname, hacc, hserved, by simp [hdropped]⟩
  | false =>
      refine ⟨name, sent, hname, hacc, hserved, ?_⟩
      have hsent := hserved.handed.2
      cases hstands' with
      | opened numbered => simpa [hdropped] using hsent
      | closed => simpa [hdropped] using hsent

/-- **The life of a `Tx`.** In every run of a process whose objects are used by any calls, next to
any other components, native close gets only descriptors of the object itself, each one once.  A
constructor that raises leaves nothing open.  Behind it, what is handed to `sendmsg` are the
messages that fit, up to the first close and numbered from 0; every call answers what its state
says; and in the end nothing is left open exactly if the object was closed or its finalizer ran. -/
theorem tx_lifetimes {ι κ : Type} [DecidableEq ι] (objects : ι → TxObject)
    {s s' : Sys SysError (Except PyError (List TxAnswer × Tx)) ι κ} (hs : s.Initial)
    (hprocs : ∀ i, s.procs i = (objects i).prog) (h : Reach s s') (i : ι) :
    (∀ c ∈ s'.closes, c.Owned) ∧ s'.closesBy i ≤ s'.opens i ∧
    (∀ e, s'.procs i = .done (.error e) →
      (objects i).args.Raises e ∧ s'.closesBy i = s'.opens i) ∧
    ∀ answers tx, s'.procs i = .done (.ok (answers, tx)) →
      ∃ name sent, cIface (some (encode (objects i).args.iface)) = .ok name ∧
        WfbTx.Accepts ((objects i).args.config name) ∧
        TxServed ((objects i).args.config name) (some 0) (objects i).calls answers sent ∧
        answers.filterMap TxAnswer.iovecs =
          (messages (objects i).calls).mapIdx (CApi.numbered ((objects i).args.config name)) ∧
        (s'.closesBy i = s'.opens i ↔ (objects i).dropped ∨ .close ∈ (objects i).calls) := by
  obtain ⟨held, hinv⟩ := h.inv hs fun j => by
    rw [hprocs j]
    exact (objects j).owns
  have hcount := hinv.count i
  refine ⟨hinv.closes, by omega, fun e hdone => ?_, fun answers tx hdone => ?_⟩
  · have hends := hinv.owns i
    rw [hdone] at hends
    obtain ⟨hraises, hnone⟩ := hends
    rw [hnone] at hcount
    exact ⟨hraises, hcount⟩
  · have hends := hinv.owns i
    rw [hdone] at hends
    obtain ⟨name, sent, hname, hacc, hserved, hheld⟩ := hends
    have hhanded := hserved.handed.1
    simp only [Nat.zero_add] at hhanded
    refine ⟨name, sent, hname, hacc, hserved, hhanded, ?_⟩
    rw [← hheld]
    cases hi : held i with
    | none => simpa [hi] using hcount
    | some fd =>
        rw [hi, Option.elim_some] at hcount
        exact iff_of_false (by omega) (by simp)

/-- A message, a close, and a message behind it. -/
def closedEarly : TxObject := ⟨tx1, [.send [0x68, 0x69] 7, .close, .send [0x68] 8], true⟩

def openedTx1 (fd : ℕ) : WfbTx := WfbTx.opened (tx1.config "wlan0") fd

/-- The constructor of the object opens a socket. -/
lemma opensTo_tx1 :
    (Tx.init tx1.capi tx1.iface tx1.streamId tx1.frameType tx1.mcsIndex tx1.bandwidth).OpensTo
      fun fd => .ok ⟨some (openedTx1 fd), false⟩ := by
  have hopen : (ffiOpen (some (encode tx1.iface)) (fun name => WfbTx.open (tx1.config name))
      none).OpensTo fun fd => ⟨wfbRsOk, some (openedTx1 fd)⟩ := by
    have hacc : WfbTx.Accepts (tx1.config "wlan0") :=
      ⟨by decide, by decide, .inl rfl, by decide, by decide, .inr (.inl rfl)⟩
    rw [ffiOpen, show tx1.iface = "wlan0" from rfl, cIface_wlan0]
    exact (WfbTx.opensTo_open hacc).bind fun fd => .refl _
  exact hopen.bind fun fd => .refl _

/-- The calls on it close the socket. -/
lemma callsTo_closedEarly (fd : ℕ) : ∃ r,
    (closedEarly.use ⟨some (openedTx1 fd), false⟩).CallsTo (.release fd (.done (.ok r))) := by
  have hlen : ([0x68, 0x69] : List UInt8).length ≤ computeMaxPayload := by decide
  obtain ⟨handle, -, hfd, hsend⟩ := Tx.send_numbered
    (WfbTx.opened_numbered (tx1.config "wlan0") fd) hlen 7 (.ok 0)
  have hcall : (Tx.call ⟨some (openedTx1 fd), false⟩ (.send [0x68, 0x69] 7)).CallsTo (.done
      (⟨some (CApi.numbered (tx1.config "wlan0") 0 ([0x68, 0x69], 7), .ok 0), .ok ()⟩,
        ⟨some handle, false⟩)) := by
    simp only [openedTx1, Tx.call, hsend]
    refine .call (.ok 0) ?_
    simp only [hsend]
    exact .refl _
  have hclose : ∃ r, (closedEarly.use ⟨some (openedTx1 fd), false⟩).CallsTo
      (.release handle.fd (.done (.ok r))) := ⟨_, ((hcall.bind _).bind _).trans (.refl _)⟩
  rwa [show handle.fd = fd from hfd] at hclose

theorem closedEarly_lifetime :
    ∃ (s : Sys SysError (Except PyError (List TxAnswer × Tx)) Unit Unit) (answers : List TxAnswer)
      (tx : Tx) (name : String), Reach (Sys.start fun _ => closedEarly.prog) s ∧
      s.procs () = .done (.ok (answers, tx)) ∧ s.closesBy () = s.opens () ∧
      answers.filterMap TxAnswer.iovecs =
        [CApi.numbered (tx1.config name) 0 ([0x68, 0x69], 7)] := by
  obtain ⟨k, hk, hdone⟩ := opensTo_tx1
  obtain ⟨⟨answers, tx⟩, hcalls⟩ := callsTo_closedEarly 0
  obtain ⟨s, hreach, hprocs, -⟩ := reach_open
    (s := (Sys.start fun _ => closedEarly.prog : Sys _ _ Unit Unit)) (i := ()) (hk.bind _) rfl
  obtain ⟨s', hreach', hprocs', -, -⟩ := reach_close (s := s) (i := ())
    (by rw [hprocs, Function.update_self]; exact ((hdone 0).bind _).trans hcalls)
  have hends : s'.procs () = .done (.ok (answers, tx)) := by rw [hprocs', Function.update_self]
  obtain ⟨-, -, -, hall⟩ := tx_lifetimes (fun _ : Unit => closedEarly) (Sys.start_initial _)
    (fun _ => rfl) (hreach.trans hreach') ()
  obtain ⟨name, sent, -, -, -, hhanded, hclosed⟩ := hall answers tx hends
  exact ⟨s', answers, tx, name, hreach.trans hreach', hends, hclosed.mpr (.inl rfl), hhanded⟩
end Python

end WfbRs
