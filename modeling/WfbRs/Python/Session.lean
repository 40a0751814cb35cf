import WfbRs.CApi.Process
import WfbRs.Delivery
import WfbRs.Python.Boundary

/-!
# Programs in Python on both ends

Calls of `Tx.send` on objects with any streams, and calls of `recv` and `recv_optional` on an `Rx`,
one after the other.  A call with arguments that the package refuses raises and changes nothing; the
others are the native calls with what `ctypes` keeps of their integers.
-/

namespace WfbRs

open Rust Descriptor PcapFilter

namespace Python

/-! ### Asking -/

/-- What a call of `recv` or `recv_optional` gives. -/
abbrev Received : Type := Except PyError (Option (List UInt8 × RxMeta))

/-- The `try` of `recv_optional`. -/
def exceptTimeout : Except PyError (List UInt8 × RxMeta) → Received
  | .ok received => .ok (some received)
  | .error (.wfbRsError .timeout _ _) => .ok none
  | .error e => .error e

/-- A call of `recv`, or of `recv_optional`. -/
structure Ask where
  timeoutMs : ℤ
  bufSize : Option ℤ
  optional : Bool

/-- What a call leaves.  The result is `none` while the call still runs. -/
structure Asked where
  rx : Rx
  world : World
  result : Option Received

def Rx.ask (rx : Rx) (world : World) (a : Ask) : Asked :=
  let out := rx.recv a.timeoutMs world a.bufSize
  ⟨out.rx, out.world, out.result.map (if a.optional then exceptTimeout else Except.map some)⟩

/-- What calls one after the other leave. -/
structure Session where
  results : List Received
  rx : Rx
  world : World

/-- A call that still runs is the last one. -/
def Rx.asks (rx : Rx) (world : World) : List Ask → Session
  | [] => ⟨[], rx, world⟩
  | a :: as =>
      let out := rx.ask world a
      match out.result with
      | none => ⟨[], out.rx, out.world⟩
      | some result =>
          let rest := out.rx.asks out.world as
          { rest with results := result :: rest.results }

/-- The size of the buffer that a call asks for. -/
def Ask.size (a : Ask) : ℤ := a.bufSize.getD wfbRsMaxPayload

/-- The arguments that the package accepts. -/
def Ask.Valid (a : Ask) : Prop := 0 ≤ a.timeoutMs ∧ 0 < a.size

instance (a : Ask) : Decidable a.Valid := inferInstanceAs (Decidable (_ ∧ _))

/-- The native call. -/
def Ask.call (a : Ask) : WfbRx.RecvCall :=
  ⟨List.replicate a.size.toNat 0, fromMillis (cUint32 a.timeoutMs).toNat⟩

/-- A payload with its sequence number and its flags. -/
abbrev Message : Type := List UInt8 × ℤ × ℤ

/-- What a call has handed over. -/
def message : Received → Option Message
  | .ok (some (payload, rxMeta)) => some (payload, rxMeta.seq, rxMeta.flags)
  | _ => none

def Session.messages (s : Session) : List Message := s.results.filterMap message

/-- The same in Python integers. -/
def ofContent (c : Content) : Message := (c.1, c.2.1.toNat, c.2.2.toNat)

section

variable {h : WfbRx} {world : World} {a : Ask}

/-- A call that is refused raises, and changes nothing. -/
lemma Rx.ask_invalid (ha : ¬ a.Valid) : ∃ msg,
    Rx.ask ⟨some h, false⟩ world a = ⟨⟨some h, false⟩, world, some (.error (.valueError msg))⟩ := by
  have hraise : ∀ msg, ∀ optional : Bool,
      (if optional then exceptTimeout else Except.map some) (.error (.valueError msg)) =
        .error (.valueError msg) := by
    intro msg optional
    cases optional <;> rfl
  by_cases htimeout : a.timeoutMs < 0
  · refine ⟨"timeout_ms must be >= 0", ?_⟩
    simp only [Rx.ask, Rx.recv, Bool.false_eq_true, if_false, if_pos htimeout, Option.map_some,
      hraise]
  · have hsize : a.bufSize.getD wfbRsMaxPayload ≤ 0 := by
      by_contra hpos
      exact ha ⟨Int.not_lt.mp htimeout, Int.not_le.mp hpos⟩
    refine ⟨"buf_size must be > 0", ?_⟩
    simp only [Rx.ask, Rx.recv, Bool.false_eq_true, if_false, if_neg htimeout, if_pos hsize,
      Option.map_some, hraise]

/-- A call that is accepted is the native one. -/
lemma Rx.ask_valid (ha : a.Valid) {out : RecvOut}
    (hout : WfbRx.recv h a.call.buf a.call.timeout world = .ok out) :
    Rx.ask ⟨some h, false⟩ world a = ⟨⟨some out.rx, false⟩, out.world,
      (answer out).map (if a.optional then exceptTimeout else Except.map some)⟩ := by
  obtain ⟨htimeout, hsize⟩ := ha
  have hresult := Rx.recv_eq htimeout hsize hout
  have hleft : nativeRecv (some h) (List.replicate a.size.toNat 0) (cUint32 a.timeoutMs) world =
      some out := by
    rw [nativeRecv, Option.bind_some]
    exact congrArg Except.toOption hout
  have hrx : (Rx.recv ⟨some h, false⟩ a.timeoutMs world a.size).rx = ⟨some out.rx, false⟩ := by
    simp only [Rx.recv, Bool.false_eq_true, if_false, if_neg (not_lt.mpr htimeout),
      if_neg (not_le.mpr hsize), Option.getD_some, hleft]
    rfl
  have hworld : (Rx.recv ⟨some h, false⟩ a.timeoutMs world a.size).world = out.world := by
    simp only [Rx.recv, Bool.false_eq_true, if_false, if_neg (not_lt.mpr htimeout),
      if_neg (not_le.mpr hsize), Option.getD_some, hleft]
    rfl
  have hsize : Rx.recv ⟨some h, false⟩ a.timeoutMs world a.bufSize =
      Rx.recv ⟨some h, false⟩ a.timeoutMs world a.size := rfl
  simp only [Rx.ask, hsize, hrx, hworld, hresult]

/-- What is handed over is what the native call has. -/
lemma message_answer (out : RecvOut) (optional : Bool) :
    ((answer out).map (if optional then exceptTimeout else Except.map some)).bind message =
      out.received.map ofContent := by
  obtain ⟨rx, buf, world, polled, drained, result⟩ := out
  rcases result with _ | e | _ | ⟨n, rxMeta⟩
  · rfl
  · cases optional <;> cases e <;> rfl
  · cases optional <;> rfl
  · cases optional <;> rfl

lemma Rx.asks_running {rx : Rx} {as : List Ask} (hresult : (rx.ask world a).result = none) :
    rx.asks world (a :: as) = ⟨[], (rx.ask world a).rx, (rx.ask world a).world⟩ := by
  simp only [Rx.asks, hresult]

lemma Rx.asks_cons {rx : Rx} {as : List Ask} {result : Received}
    (hresult : (rx.ask world a).result = some result) :
    (rx.asks world (a :: as)).messages = (message result).toList ++
        ((rx.ask world a).rx.asks (rx.ask world a).world as).messages ∧
      (rx.asks world (a :: as)).rx = ((rx.ask world a).rx.asks (rx.ask world a).world as).rx ∧
      (rx.asks world (a :: as)).world =
        ((rx.ask world a).rx.asks (rx.ask world a).world as).world := by
  simp only [Rx.asks, hresult, Session.messages, List.filterMap_cons, and_true]
  cases message result <;> rfl

/-- Calls hand over what the native calls of those that are accepted do, and leave what these
leave. -/
lemma Rx.asks_eq {as : List Ask} {run : WfbRx.RecvRun}
    (hrun : WfbRx.recvs h world ((as.filter fun a => decide a.Valid).map Ask.call) = .ok run) :
    (Rx.asks ⟨some h, false⟩ world as).messages = run.received.map ofContent ∧
      (Rx.asks ⟨some h, false⟩ world as).rx = ⟨some run.rx, false⟩ ∧
      (Rx.asks ⟨some h, false⟩ world as).world = run.world := by
  induction as generalizing h world run with
  | nil =>
      obtain rfl := Except.ok.inj hrun
      exact ⟨rfl, rfl, rfl⟩
  | cons a as ih =>
      by_cases ha : a.Valid
      · rw [List.filter_cons_of_pos (by simpa using ha), List.map_cons, WfbRx.recvs] at hrun
        obtain ⟨out, hout, hrun⟩ := bind_eq_ok.mp hrun
        have hask := Rx.ask_valid ha hout
        have hmessage := message_answer out a.optional
        by_cases hrunning : out.result = none
        · rw [if_pos hrunning] at hrun
          obtain rfl := Except.ok.inj hrun
          have hreceived : out.received = none := by
            simp [RecvOut.received, hrunning]
          rw [Rx.asks_running (by rw [hask, answer, hrunning]; rfl), hask]
          simp [Session.messages, WfbRx.RecvRun.received, hreceived]
        · rw [if_neg hrunning] at hrun
          obtain ⟨rest, hrest, hrun⟩ := bind_eq_ok.mp hrun
          obtain rfl := Except.ok.inj hrun
          obtain ⟨result, hresult⟩ := Option.ne_none_iff_exists'.mp hrunning
          obtain ⟨received, hreceived⟩ : ∃ received, answer out = some received :=
            ⟨_, by rw [answer, hresult]; rfl⟩
          rw [hreceived, Option.map_some] at hask
          rw [hreceived, Option.map_some, Option.bind_some] at hmessage
          obtain ⟨hmessages, hrx, hworld⟩ := Rx.asks_cons (congrArg Asked.result hask)
          obtain ⟨hmessages', hrx', hworld'⟩ := ih hrest
          rw [hmessages, hrx, hworld, hmessage, hask, hmessages', hrx', hworld']
          refine ⟨?_, rfl, rfl⟩
          simp only [WfbRx.RecvRun.received, List.filterMap_cons]
          cases out.received <;> rfl
      · obtain ⟨msg, hask⟩ := @Rx.ask_invalid h world _ ha
        rw [List.filter_cons_of_neg (by simpa using ha)] at hrun
        obtain ⟨hmessages, hrx, hworld⟩ := Rx.asks_cons (congrArg Asked.result hask)
        rw [hmessages, hrx, hworld, hask]
        exact ih hrun

end

/-! ### Sending -/

/-- A call of `Tx.send` on one of the objects, with the answer of `sendmsg`. -/
structure PySend (ι : Type) where
  object : ι
  payload : List UInt8
  seq : ℤ
  rc : Except SysError ℤ

section

variable {ι : Type}

/-- The native call. -/
def PySend.call (c : PySend ι) : SendCall ι := ⟨c.object, c.payload, cUint32 c.seq, c.rc⟩

/-- What is sent, in Python integers. -/
def PySend.message (c : PySend ι) : Message := (c.payload, c.seq % 2 ^ 32, 0)

/-- The frame that a call puts on the air. -/
def pyEmission (c : PySend ι) (out : TxSent) : Option (Emission ι) :=
  match out.result, out.iovecs with
  | .ok _, some iovecs => some ⟨c.call, iovecs.flatten⟩
  | _, _ => none

/-- Calls of `send` on the objects, one after the other, and the frames that they emit. -/
def pySends [DecidableEq ι] (tx : ι → Tx) : List (PySend ι) → List (Emission ι)
  | [] => []
  | c :: cs =>
      let out := (tx c.object).send c.payload c.seq c.rc
      (pyEmission c out).toList ++ pySends (Function.update tx c.object out.tx) cs

lemma ofContent_content (c : PySend ι) : ofContent c.call.content = c.message := by
  have hseq := toNat_cUint32 c.seq
  simp only [SendCall.content, PySend.call, ofContent, PySend.message, hseq]
  rfl

/-- The object around a handle. -/
def around (h : ι → WfbTx) (i : ι) : Tx := ⟨some (h i), false⟩

/-- A payload that fits is handed to the native call, and its code is raised. -/
lemma Tx.send_native {h : WfbTx} {payload : List UInt8} {seq : ℤ} {rc : Except SysError ℤ}
    {out : WfbTx.Sent} (hlen : payload.length ≤ computeMaxPayload)
    (hout : WfbTx.send h payload (cUint32 seq) rc = .ok out) :
    Tx.send ⟨some h, false⟩ payload seq rc = ⟨⟨some out.tx, false⟩, out.iovecs,
      raiseForCode (if rc.isOk then wfbRsOk else wfbRsErrIo) "wfb_tx_send"⟩ := by
  have hsmall : ¬ payload.length > wfbRsMaxPayload := Nat.not_lt_of_le hlen
  have hptr : ((if payload = [] then none else some payload).getD []).take payload.length =
      payload := by
    split <;> simp [*]
  have hnull : ¬ (payload.length > 0 ∧ (if payload = [] then none else some payload) = none) := by
    split <;> simp [*]
  simp only [Tx.send, Bool.false_eq_true, if_false, if_neg hsmall, wfbTxSend, if_neg hnull, hptr,
    hout]
  exact congrArg (fun code => TxSent.mk ⟨some out.tx, false⟩ out.iovecs
    (raiseForCode code "wfb_tx_send")) (WfbTx.send_code hlen hout)

/-- A call on an object is a native call on its handle. -/
lemma pySend_eq {h : WfbTx} (c : PySend ι) {out : WfbTx.Sent}
    (hout : WfbTx.send h c.payload (cUint32 c.seq) c.rc = .ok out) :
    (Tx.send ⟨some h, false⟩ c.payload c.seq c.rc).tx = ⟨some out.tx, false⟩ ∧
      pyEmission c (Tx.send ⟨some h, false⟩ c.payload c.seq c.rc) = emission c.call out := by
  by_cases hlen : c.payload.length ≤ computeMaxPayload
  · have hcode := WfbTx.send_code hlen hout
    rw [Tx.send_native hlen hout]
    obtain ⟨tx, iovecs, result⟩ := out
    refine ⟨rfl, ?_⟩
    cases result with
    | ok u =>
        have hok : raiseForCode (if c.rc.isOk then wfbRsOk else wfbRsErrIo) "wfb_tx_send" =
            .ok () := if_pos hcode.symm
        simp only [pyEmission, emission, hok]
        cases iovecs <;> rfl
    | error e =>
        have hne : (if c.rc.isOk then wfbRsOk else wfbRsErrIo) ≠ wfbRsOk :=
          fun heq => mapErr_ne_ok e (hcode.trans heq)
        simp [pyEmission, emission, raiseForCode, hne, throw, throwThe, MonadExceptOf.throw]
  · obtain ⟨e, hsend⟩ := WfbTx.send_too_large h (cUint32 c.seq) c.rc hlen
    obtain rfl := Except.ok.inj (hsend.symm.trans hout)
    obtain ⟨e', hrefused⟩ := Tx.send_too_large h c.seq c.rc hlen
    rw [hrefused]
    exact ⟨rfl, rfl⟩

/-- Calls on objects emit what the native calls do. -/
lemma pySends_eq [DecidableEq ι] {cfg : ι → WfbTxConfig} {h : ι → WfbTx}
    (hinv : ∀ i, WfbTx.HeaderInv (cfg i) (h i)) (calls : List (PySend ι)) :
    sends h (calls.map PySend.call) = .ok (pySends (around h) calls) := by
  induction calls generalizing h with
  | nil => rfl
  | cons c cs ih =>
      obtain ⟨out, hsend, hinv', -⟩ := send_emission c.call (hinv c.object)
      obtain ⟨htx, hemission⟩ := pySend_eq c hsend
      have hupdate : ∀ i, WfbTx.HeaderInv (cfg i) (Function.update h c.object out.tx i) := by
        intro i
        by_cases hi : i = c.object
        · subst hi
          rw [Function.update_self]
          exact hinv'
        · simpa [Function.update_of_ne hi] using hinv i
      have haround : Function.update (around h) c.object ⟨some out.tx, false⟩ =
          around (Function.update h c.object out.tx) := by
        funext i
        by_cases hi : i = c.object
        · subst hi
          simp [around]
        · simp [around, Function.update_of_ne hi]
      have hobject : around h c.object = ⟨some (h c.object), false⟩ := rfl
      have hcall : WfbTx.send (h c.call.handle) c.call.payload c.call.seq c.call.rc = .ok out := hsend
      rw [List.map_cons, sends, hcall, ok_bind, show c.call.handle = c.object from rfl, ih hupdate,
        ok_bind, pySends, hobject, htx, hemission, haround]
      rfl

end

/-! ### From one program to another -/

/-- **Python to Python.** Objects on any streams send in any interleaving; another program asks an
`Rx` for frames by any calls, of which those that are accepted have room for any payload.  If no
batch has more frames of its stream than the ring holds, then what the calls hand over is, in
order, what was sent on the stream, with the sequence numbers modulo `2 ^ 32`; the rest is queued,
or in the batches left.  Calls that are attended leave nothing of it behind, if they are as
many. -/
theorem python_received {ι : Type} [DecidableEq ι] {a : ι → TxArgs} {tx : ι → Tx}
    (htx : ∀ i, (a i).Constructs (tx i)) (calls : List (PySend ι)) {b : RxArgs} {rx : Rx}
    (hrx : b.Constructs rx) {filter : String → List UInt8 → Bool} (hfilter : Implements filter) :
    ∃ h, rx = ⟨some h, false⟩ ∧
      ∀ batches : List (Batch ι), batches.flatMap Batch.emitted = pySends tx calls →
        (∀ batch ∈ batches, OnAir h batch.emitted (batch.packets.map CapturedPacket.bytes)) →
      ∀ world : World, world.captures = batches.map (Batch.handedOut filter h) →
        (∀ batch ∈ batches, (batch.contents (fun i => (a i).config (a i).iface)
          (cUint32 b.streamId)).length ≤ h.ringSize) →
      ∀ as : List Ask, (∀ ask ∈ as, ask.Valid → wfbRsMaxPayload ≤ ask.size) →
        ∃ h' k, (rx.asks world as).rx = ⟨some h', false⟩ ∧
          (rx.asks world as).world.captures = (batches.drop k).map (Batch.handedOut filter h) ∧
          (rx.asks world as).messages ++ h'.queue.map (fun f => ofContent f.content) ++
              ((batches.drop k).flatMap (Batch.contents (fun i => (a i).config (a i).iface)
                (cUint32 b.streamId))).map ofContent =
            (calls.filter fun c => c.call.Emits ∧
              cUint32 (a c.object).streamId = cUint32 b.streamId).map PySend.message ∧
          ∀ timeout, h.Attended timeout none world →
            (∀ ask ∈ as, ask.Valid → timeout ≤ ask.call.timeout) →
            (calls.filter fun c => c.call.Emits ∧
              cUint32 (a c.object).streamId = cUint32 b.streamId).length ≤
                (as.filter fun ask => decide ask.Valid).length →
            (rx.asks world as).messages = (calls.filter fun c => c.call.Emits ∧
              cUint32 (a c.object).streamId = cUint32 b.streamId).map PySend.message := by
  have hconstructs := fun i => TxArgs.constructs_iff.mp (htx i)
  choose _ _ name fd _ _ htx using hconstructs
  obtain rfl : tx = around fun i => WfbTx.opened ((a i).config (name i)) (fd i) := funext htx
  have hinv : ∀ i, WfbTx.HeaderInv ((a i).config (name i))
      (WfbTx.opened ((a i).config (name i)) (fd i)) := fun i => WfbTx.opened_inv _ _
  obtain ⟨-, -, rxName, h, -, hopen, rfl⟩ := RxArgs.constructs_iff.mp hrx
  refine ⟨h, rfl, fun batches hemitted hair world hworld hroom as has => ?_⟩
  -- the native calls
  obtain ⟨emitted, hsends, hcalls, hwf⟩ := sends_spec hinv (calls.map PySend.call)
  obtain rfl : pySends _ calls = emitted := Except.ok.inj ((pySends_eq hinv calls).symm.trans hsends)
  obtain ⟨run, taken, hrun, -⟩ := WfbRx.recvs_spec (WfbRx.opened_inv hopen).1 world
    ((as.filter fun ask : Ask => decide ask.Valid).map Ask.call)
  obtain ⟨hmessages, hleft, hend⟩ := Rx.asks_eq hrun
  have hbuf : ∀ c ∈ (as.filter fun ask : Ask => decide ask.Valid).map Ask.call,
      computeMaxPayload ≤ c.buf.length := by
    intro c hc
    obtain ⟨ask, hask, rfl⟩ := List.mem_map.mp hc
    obtain ⟨hask, hvalid⟩ := List.mem_filter.mp hask
    have hsize := has ask hask (by simpa using hvalid)
    rw [Ask.call, List.length_replicate]
    exact Int.le_toNat (by omega) |>.mpr hsize
  have hcontents := @contents_emitted ι (fun i => (a i).config (name i)) _ _ hcalls
    (cUint32 b.streamId)
  rw [← hemitted] at hcontents hwf
  obtain ⟨hcaptures, hall, hattended⟩ := @run_delivers ι (fun i => (a i).config (name i)) _ _
    hopen _ hfilter _ hair hwf _ hworld hroom _ hbuf _ hrun _ hcontents
  -- the streams are the same whatever name the library has read
  have hsent : (((calls.map PySend.call).filter fun c => c.Emits ∧
      ((a c.handle).config (name c.handle)).streamId = cUint32 b.streamId).map
        SendCall.content).map ofContent =
      (calls.filter fun c => c.call.Emits ∧
        cUint32 (a c.object).streamId = cUint32 b.streamId).map PySend.message := by
    rw [List.filter_map, List.map_map, List.map_map]
    exact List.map_congr_left fun c _ => ofContent_content c
  refine ⟨run.rx, run.drained.length, hleft, hend ▸ hcaptures, ?_,
    fun timeout hatt htimeout henough => ?_⟩
  · have hmap := congrArg (List.map ofContent) hall
    rw [List.map_append, List.map_append, ← hmessages, List.map_map] at hmap
    exact hmap.trans hsent
  · have hlength := congrArg List.length hsent
    rw [List.length_map, List.length_map] at hlength
    rw [hmessages, ← hsent]
    refine congrArg (List.map ofContent) (hattended timeout hatt ?_ ?_)
    · intro c hc
      obtain ⟨ask, hask, rfl⟩ := List.mem_map.mp hc
      obtain ⟨hask, hvalid⟩ := List.mem_filter.mp hask
      exact htimeout ask hask (by simpa using hvalid)
    · rwa [List.length_map, hlength, List.length_map, List.length_map]

/-- A receiver on stream 1. -/
def rx1 : RxArgs := ⟨.ok (), "wlan0", 1, true, 16⟩

def onStream1 : WfbRx := WfbRx.fresh (rx1.config "wlan0") ⟨3, filterExp 1⟩

lemma constructs_rx1 : rx1.Constructs ⟨some onStream1, false⟩ :=
  RxArgs.constructs_iff.mpr ⟨by decide, rfl, "wlan0", _, cIface_wlan0,
    WfbRx.returns_open.mpr ⟨by decide, by decide, 3, rfl⟩, rfl⟩

/-- A sequence number that `ctypes` narrows to 7. -/
def oneSend : PySend Unit := ⟨(), [0x68, 0x69], 2 ^ 32 + 7, .ok 0⟩

/-- The world of a receiver that finds the frame. -/
def oneWorld : World :=
  ⟨[0, 1, 2], [.ready],
    [[framePacket 1].filter fun p => eval onStream1.pcap.filterExp p.bytes]⟩

/-- The call finds it at once. -/
lemma attended_oneWorld : onStream1.Attended 1000000 none oneWorld := by
  have haccepted : onStream1.acceptedFrames
      ([framePacket 1].filter fun p => eval onStream1.pcap.filterExp p.bytes) ≠ [] := by
    decide +kernel
  exact .starts (.accepted (by decide) haccepted .finished)

theorem rx1_received : ∃ h, (Rx.asks ⟨some onStream1, false⟩ oneWorld [⟨-1, none, false⟩,
      ⟨100, none, true⟩]).rx = ⟨some h, false⟩ ∧
    (Rx.asks ⟨some onStream1, false⟩ oneWorld [⟨-1, none, false⟩, ⟨100, none, true⟩]).messages =
      [([0x68, 0x69], 7, 0)] ∧ h.queue = [] := by
  obtain ⟨h, hh, hreceived⟩ := python_received (fun _ : Unit => constructs_tx1) [oneSend]
    constructs_rx1 implements_eval
  obtain rfl : onStream1 = h := Option.some.inj (Wrapper.mk.inj hh).1
  obtain ⟨e, he, hframe⟩ : ∃ e : Emission Unit,
      pySends (fun _ => ⟨some (WfbTx.opened (tx1.config "wlan0") 3), false⟩) [oneSend] = [e] ∧
        e.frame.drop 13 = twoFrames.getD 1 [] := ⟨_, rfl, by decide +kernel⟩
  have hcaptured : Captured e.frame bareHeader [] _ (framePacket 1).bytes :=
    ⟨by rw [framePacket, bytes_wholePacket, hframe, List.append_nil], rfl, rfl, by decide,
      by decide, rfl⟩
  obtain ⟨h', k, hleft, -, hall, hattended⟩ := hreceived [⟨[e], [framePacket 1]⟩] he.symm
    (by
      intro batch hbatch
      obtain rfl := List.mem_singleton.mp hbatch
      exact .frame hcaptured .nil)
    oneWorld rfl
    (by
      intro batch hbatch
      obtain rfl := List.mem_singleton.mp hbatch
      exact (Batch.length_contents_le _ _ _).trans (show 1 ≤ onStream1.ringSize by decide))
    [⟨-1, none, false⟩, ⟨100, none, true⟩]
    (by
      intro ask hask _
      rcases List.mem_pair.mp hask with rfl | rfl <;> exact le_rfl)
  have hmessages := hattended 1000000 attended_oneWorld
    (by
      intro ask hask hvalid
      rcases List.mem_pair.mp hask with rfl | rfl
      · exact absurd hvalid (by decide)
      · decide)
    (by decide)
  rw [← hmessages, List.append_assoc, List.append_right_eq_self] at hall
  exact ⟨h', hleft, hmessages, List.map_eq_nil_iff.mp (List.append_eq_nil_iff.mp hall).1⟩

end Python

end WfbRs
