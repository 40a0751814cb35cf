import WfbRs.CApi.Streams

/-!
# One handle among others

A process calls the C interface on many handles in any order.  Seen through one of them, from the
call that opened it on, the run is that of its stream or of its queue alone.
-/

namespace WfbRs

open Rust Descriptor

namespace CApi

/-! ### The part of a run on a handle -/

/-- The handle that a call is given. -/
def Call.handle : Call → Option ℕ
  | .txOpen .. => none
  | .txClose handle => handle
  | .txSend handle .. => handle
  | .rxOpen .. => none
  | .rxClose handle => handle
  | .rxRecv handle .. => handle

/-- What a send call asks to be sent, if it is not refused. -/
def Call.message : Call → Option (List UInt8 × UInt32)
  | .txSend _ payload payloadLen seq =>
      if payloadLen ≤ computeMaxPayload ∧ (0 < payloadLen → payload ≠ none) then
        some ((payload.getD []).take payloadLen, seq)
      else none
  | _ => none

/-- The calls on a handle. -/
def onHandle (p : ℕ) (events : List Event) : List Event :=
  events.filter fun e => e.call.handle = some p

/-- What was asked to be sent through a handle, what was handed to the system, and what was taken
from its capture. -/
def messages (p : ℕ) (events : List Event) : List (List UInt8 × UInt32) :=
  (onHandle p events).filterMap fun e => e.call.message

def handed (p : ℕ) (events : List Event) : List (List (List UInt8)) :=
  (onHandle p events).filterMap fun e => e.answer.sent.map Prod.fst

def drained (p : ℕ) (events : List Event) : List (List CapturedPacket) :=
  (onHandle p events).flatMap fun e => e.answer.drained

/-- Frame `k` of a stream, with a message in it. -/
def numbered (cfg : WfbTxConfig) (k : ℕ) (message : List UInt8 × UInt32) : List (List UInt8) :=
  WfbTx.numberedFrame cfg k ⟨message.1, message.2, .ok 0⟩

/-- What a receive call gives its caller of a frame. -/
inductive Event.Gives (e : Event) : Option Frame → Prop
  | frame {buf : List UInt8} {f : Frame} (code : e.answer.code = wfbRsOk)
      (outBuf : e.answer.outBuf = some (f.payload.take buf.length ++ buf.drop f.payload.length))
      (outLen : e.answer.outLen = some (min f.payload.length buf.length))
      (outMeta : ∀ m ∈ e.answer.outMeta, m = toCMeta (f.metaFor buf.length)) : e.Gives (some f)
  | nothing (code : e.answer.code ≠ wfbRsOk) : e.Gives none

section

variable {hs hs' : Handles} {call : Call} {answer : Answer} {p : ℕ}

/-- A call leaves the other handles alone. -/
lemma Serves.frame (h : Serves hs call answer hs') (hcall : call.handle ≠ some p)
    (live : hs p ≠ none) : hs' p = hs p := by
  have hother {q : ℕ} (hq : some q ≠ some p) {handle : Option Handle} :
      Function.update hs q handle p = hs p :=
    Function.update_of_ne (fun heq => hq (by rw [heq])) _ _
  have hnew {box : ℕ} (hbox : hs box = none) {handle : Option Handle} :
      Function.update hs box handle p = hs p := by
    refine Function.update_of_ne ?_ _ _
    rintro rfl
    exact live hbox
  cases h with
  | null | txRefused | tooLarge | rxRefused | noBuffer | timedOut | pollFailed => rfl
  | txOpened opens free => exact hnew free
  | rxOpened opens free => exact hnew free
  | txClosed | sent | rxClosed | received => exact hother hcall

/-- A call on a transmit handle sends at most its message, with the number that is next. -/
lemma Serves.tx (h : Serves hs call answer hs') {cfg : WfbTxConfig} {k : ℕ}
    (live : hs p = some (.tx cfg k)) (hcall : call.handle = some p)
    (hclose : call ≠ .txClose (some p)) :
    answer.sent.map Prod.fst = call.message.map (numbered cfg k) ∧
      hs' p = some (.tx cfg (k + call.message.toList.length)) := by
  cases h with
  | null null =>
      have hnone : call.message = none := by
        cases call with
        | txSend handle payload payloadLen seq =>
            obtain rfl : handle = some p := hcall
            rcases null with hnull | ⟨hpos, hnull⟩
            · cases hnull
            · exact if_neg fun hgiven => hgiven.2 hpos hnull
        | _ => rfl
      rw [hnone]
      exact ⟨rfl, live⟩
  | txRefused | txOpened | rxRefused | rxOpened => cases hcall
  | txClosed => exact absurd (by rw [← hcall]; rfl) hclose
  | @tooLarge q cfg' sent payload payloadLen seq live' large given =>
      have hnone : (Call.txSend (some q) payload payloadLen seq).message = none :=
        if_neg fun hfits => absurd hfits.1 (Nat.not_le_of_lt large)
      rw [hnone]
      exact ⟨rfl, live⟩
  | @sent q cfg' sent payload payloadLen seq rc live' fits given =>
      obtain rfl : q = p := Option.some.inj hcall
      obtain ⟨rfl, rfl⟩ : cfg' = cfg ∧ sent = k := by simpa [live] using live'.symm
      have hsome : (Call.txSend (some q) payload payloadLen seq).message =
          some ((payload.getD []).take payloadLen, seq) := if_pos ⟨fits, given⟩
      rw [hsome]
      exact ⟨rfl, Function.update_self ..⟩
  | rxClosed live' | noBuffer live' | received live' | timedOut live' | pollFailed live' =>
      obtain rfl := Option.some.inj hcall
      simp [live] at live'

/-- A call on a receive handle gives the front of the queue, or nothing. -/
lemma Serves.rx (h : Serves hs call answer hs') {cfg : WfbRxConfig} {queue : List Frame}
    (live : hs p = some (.rx cfg queue)) (hcall : call.handle = some p)
    (hclose : call ≠ .rxClose (some p)) : ∃ f queue', Event.Gives ⟨call, answer⟩ f ∧
      f.toList ++ queue' = queue ++ answer.drained.flatMap cfg.kept ∧
      hs' p = some (.rx cfg queue') := by
  have hnothing {code : ℤ} (hcode : code ≠ wfbRsOk) {outBuf : Option (List UInt8)} :
      Event.Gives ⟨call, { code := code, outBuf := outBuf }⟩ none := .nothing hcode
  cases h with
  | null null => exact ⟨none, queue, hnothing (by decide), by simp, live⟩
  | txRefused | txOpened | rxRefused | rxOpened => cases hcall
  | rxClosed => exact absurd (by rw [← hcall]; rfl) hclose
  | noBuffer => exact ⟨none, queue, hnothing (by decide), by simp, live⟩
  | @received q cfg' queue' buf timeoutMs outMeta batches f rest live' buffer frames =>
      obtain rfl : q = p := Option.some.inj hcall
      obtain ⟨rfl, rfl⟩ : cfg' = cfg ∧ queue' = queue := by simpa [live] using live'.symm
      exact ⟨some f, rest, .frame rfl rfl rfl (by cases outMeta <;> simp [pointer]), frames.symm,
        Function.update_self ..⟩
  | @timedOut q cfg' queue' buf timeoutMs outMeta batches live' buffer frames =>
      obtain rfl : q = p := Option.some.inj hcall
      obtain ⟨rfl, rfl⟩ : cfg' = cfg ∧ queue' = queue := by simpa [live] using live'.symm
      have hempty : queue' = [] := (List.append_eq_nil_iff.mp frames).1
      exact ⟨none, queue', .nothing (show wfbRsErrTimeout ≠ wfbRsOk by decide),
        hempty.trans frames.symm, live⟩
  | @pollFailed q cfg' queue' buf timeoutMs outMeta batches live' buffer frames =>
      obtain rfl : q = p := Option.some.inj hcall
      obtain ⟨rfl, rfl⟩ : cfg' = cfg ∧ queue' = queue := by simpa [live] using live'.symm
      have hempty : queue' = [] := (List.append_eq_nil_iff.mp frames).1
      exact ⟨none, queue', .nothing (show wfbRsErrIo ≠ wfbRsOk by decide),
        hempty.trans frames.symm, live⟩
  | txClosed live' | tooLarge live' | sent live' =>
      obtain rfl := Option.some.inj hcall
      simp [live] at live'

lemma onHandle_cons (p : ℕ) (e : Event) (events : List Event) : onHandle p (e :: events) =
    if e.call.handle = some p then e :: onHandle p events else onHandle p events := by
  simp only [onHandle, List.filter_cons, decide_eq_true_eq]

/-- Along a run, a transmit handle that is not closed sends its messages, each with its number. -/
lemma Served.tx {events : List Event} (h : Served hs events hs') {cfg : WfbTxConfig} {k : ℕ}
    (live : hs p = some (.tx cfg k)) (hclose : ∀ e ∈ events, e.call ≠ .txClose (some p)) :
    handed p events = (messages p events).mapIdx fun i => numbered cfg (k + i) := by
  induction h generalizing k with
  | nil => rfl
  | @cons hs hs' hs'' call answer events first rest ih =>
      have hrest : ∀ e ∈ events, e.call ≠ .txClose (some p) := fun e he =>
        hclose e (List.mem_cons_of_mem _ he)
      simp only [handed, messages, onHandle_cons] at ih ⊢
      by_cases hcall : call.handle = some p
      · obtain ⟨hsent, hlive⟩ := first.tx live hcall (hclose _ List.mem_cons_self)
        rw [if_pos hcall, List.filterMap_cons, List.filterMap_cons, hsent, ih hlive hrest]
        cases call.message with
        | none => rfl
        | some m => simp [List.mapIdx_cons, Nat.add_assoc, Nat.add_comm 1]
      · rw [if_neg hcall]
        refine ih ?_ hrest
        rw [first.frame hcall (by simp [live]), live]

/-- Along a run, a receive handle that is not closed gives its queue and what its drains keep. -/
lemma Served.rx {events : List Event} (h : Served hs events hs') {cfg : WfbRxConfig}
    {queue : List Frame} (live : hs p = some (.rx cfg queue))
    (hclose : ∀ e ∈ events, e.call ≠ .rxClose (some p)) :
    ∃ taken queue', List.Forall₂ Event.Gives (onHandle p events) taken ∧
      taken.reduceOption ++ queue' = queue ++ (drained p events).flatMap cfg.kept ∧
      hs' p = some (.rx cfg queue') := by
  induction h generalizing queue with
  | nil => exact ⟨[], queue, .nil, by simp [drained, onHandle], live⟩
  | @cons hs hs' hs'' call answer events first rest ih =>
      have hrest : ∀ e ∈ events, e.call ≠ .rxClose (some p) := fun e he =>
        hclose e (List.mem_cons_of_mem _ he)
      simp only [drained, onHandle_cons] at ih ⊢
      by_cases hcall : call.handle = some p
      · obtain ⟨f, queue', hgives, hframes, hlive⟩ :=
          first.rx live hcall (hclose _ List.mem_cons_self)
        obtain ⟨taken, queue'', htaken, hqueue, hend⟩ := ih hlive hrest
        rw [if_pos hcall]
        refine ⟨f :: taken, queue'', .cons hgives htaken, ?_, hend⟩
        have hreduce : (f :: taken).reduceOption = f.toList ++ taken.reduceOption := by
          cases f <;> rfl
        rw [hreduce, List.append_assoc, hqueue, ← List.append_assoc, hframes, List.flatMap_cons,
          List.flatMap_append, List.append_assoc]
      · rw [if_neg hcall]
        refine ih ?_ hrest
        rw [first.frame hcall (by simp [live]), live]

end

/-- Where a run has come to behind its first calls. -/
lemma Run.split {heap heap' : Heap} {before after : List Event} {e : Event}
    (h : Run heap (before ++ e :: after) heap') : ∃ heap₁ heap₂, Run heap before heap₁ ∧
      Step heap₁ e.call e.answer heap₂ ∧ Run heap₂ after heap' := by
  induction before generalizing heap with
  | nil =>
      cases h with
      | cons step rest => exact ⟨heap, _, .nil heap, step, rest⟩
  | cons e' before ih =>
      cases h with
      | cons step rest =>
          obtain ⟨heap₁, heap₂, hbefore, hstep, hafter⟩ := ih rest
          exact ⟨heap₁, heap₂, .cons step hbefore, hstep, hafter⟩

/-- **Handles are independent.** Whatever a process calls on its other handles, and whatever the
address has stood for before: what is sent through a handle from its open call on is its messages
with the numbers 0, 1, 2 and so on; and what it receives is, with what is queued behind it, what its
own drains keep, in order. -/
theorem handles_independent {before after : List Event} {call : Call} {answer : Answer} {p : ℕ}
    {heap : Heap} (h : Run (fun _ => none) (before ++ ⟨call, answer⟩ :: after) heap)
    (hopened : answer.opened = some p) :
    (∀ cfg outHandle, call = .txOpen cfg outHandle → (∀ e ∈ after, e.call ≠ .txClose (some p)) →
      ∃ c ∈ cfg, ∃ rust, c.Opens rust ∧
        handed p after = (messages p after).mapIdx (numbered rust)) ∧
    (∀ cfg outHandle, call = .rxOpen cfg outHandle → (∀ e ∈ after, e.call ≠ .rxClose (some p)) →
      ∃ c ∈ cfg, ∃ rust, c.Opens rust ∧ ∃ rx taken, heap p = some (.rx rx) ∧
        List.Forall₂ Event.Gives (onHandle p after) taken ∧
          taken.reduceOption ++ rx.queue = (drained p after).flatMap rust.kept) := by
  have hnone : Refines (fun _ => none) fun _ => none := fun _ => .none
  obtain ⟨heap₁, heap₂, hbefore, hstep, hafter⟩ := h.split
  obtain ⟨hs₁, -, hrefines₁⟩ := hbefore.served hnone
  obtain ⟨hs₂, hserves, hrefines₂⟩ := hrefines₁.step hstep
  obtain ⟨hs, hserved, hrefines⟩ := hafter.served hrefines₂
  refine ⟨?_, ?_⟩
  · rintro cfg outHandle rfl hclose
    cases hserves with
    | null | txRefused => cases hopened
    | txOpened opens free =>
        obtain rfl := Option.some.inj hopened
        have htx := hserved.tx (Function.update_self ..) hclose
        simp only [Nat.zero_add] at htx
        exact ⟨_, rfl, _, opens, htx⟩
  · rintro cfg outHandle rfl hclose
    cases hserves with
    | null | rxRefused => cases hopened
    | rxOpened opens free =>
        obtain rfl := Option.some.inj hopened
        obtain ⟨taken, queue, htaken, hqueue, hlive⟩ :=
          hserved.rx (Function.update_self ..) hclose
        obtain ⟨rx, hrx, -, rfl⟩ := hrefines.receiver hlive
        exact ⟨_, rfl, _, opens, rx, taken, hrx, htaken, hqueue⟩

theorem sendCall_independent : ∃ sent received heap rx,
    Run (fun _ => none) (talk sent received) heap ∧
    (∃ rust, cStream1.Opens rust ∧
      handed 16 (talk sent received) = [numbered rust 0 ([0x68, 0x69], 7)]) ∧
    received.outBuf = some [0x68, 0x69, 0, 0] ∧ heap 32 = some (.rx rx) ∧ rx.queue = [] ∧
    ∃ f, List.Forall₂ Event.Gives (onHandle 32 (talk sent received)) [some f] ∧
      f.content = ([0x68, 0x69], 7, 0) := by
  obtain ⟨sent, received, heap, rx, hrun, -, -, hbuf, -, hdrained, hrx, hqueue⟩ := run_talk
  refine ⟨sent, received, heap, rx, hrun, ?_, hbuf, hrx, hqueue, ?_⟩
  · have hopen : Run _ ([] ++ _ :: _) _ := hrun
    obtain ⟨c, hc, rust, hopens, hhanded⟩ := (handles_independent hopen rfl).1 (some cStream1) true
      rfl (by simp [listenCall, sendCall, recvCall])
    obtain rfl := Option.some.inj hc
    exact ⟨rust, hopens, hhanded⟩
  · have hlisten : Run _ ([_] ++ _ :: _) _ := hrun
    obtain ⟨c, hc, rust, hopens, rx', taken, hrx', htaken, hframes⟩ :=
      (handles_independent hlisten rfl).2 (some cListen1) true rfl (by simp [sendCall, recvCall])
    obtain rfl := Option.some.inj hc
    obtain ⟨name, hname, rfl, -⟩ := hopens
    obtain rfl : rx = rx' := Boxed.rx.inj (Option.some.inj (hrx.symm.trans hrx'))
    have hbatches : drained 32 [⟨sendCall, sent⟩, ⟨recvCall, received⟩] = twoDrains :=
      (List.append_nil _).trans hdrained
    rw [hqueue, List.append_nil, hbatches] at hframes
    -- one call, and one frame
    have hlength := htaken.length_eq
    obtain ⟨o, rfl⟩ := List.length_eq_one_iff.mp hlength.symm
    have htwo : o.toList.map Frame.content = [([0x68, 0x69], 7, 0)] := by
      have hreduce : [o].reduceOption = o.toList := by cases o <;> rfl
      rw [← hreduce, hframes]
      exact kept_twoDrains
    obtain ⟨f, hf, hcontent⟩ := List.map_eq_singleton_iff.mp htwo
    obtain rfl := Option.toList_eq_singleton_iff.mp hf
    exact ⟨f, htaken, hcontent⟩

end CApi

end WfbRs
