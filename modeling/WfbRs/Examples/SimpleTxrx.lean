import WfbRs.Delivery
import WfbRs.Ffi
import WfbRs.Examples.StreamId

/-!
# Lines from one terminal to another (`examples/simple_txrx.rs`)

The program sends every line that it reads, with a counter for its sequence number, while a thread
of it prints what is received.  What two of these programs say to each other follows from the
delivery of frames.  The text around a printed payload is left out.
-/

namespace WfbRs

open Rust Descriptor PcapFilter

namespace Examples

/-! ### Lines -/

section

variable {α : Type} [DecidableEq α]

/-- The lines of an input with what ends them; the last one may have no line feed. -/
def linesOf (feed : α) : List α → List (List α)
  | [] => []
  | b :: bs =>
      if b = feed then [b] :: linesOf feed bs
      else
        match linesOf feed bs with
        | [] => [[b]]
        | line :: lines => (b :: line) :: lines

/-- What ends no line belongs to the first one. -/
lemma linesOf_front {feed : α} {front : List α} (hne : front ≠ []) (h : feed ∉ front)
    (rest : List α) : linesOf feed (front ++ rest) =
      (front ++ (linesOf feed rest).headD []) :: (linesOf feed rest).tail := by
  induction front with
  | nil => exact absurd rfl hne
  | cons b front ih =>
      obtain ⟨hb, hfront⟩ := not_or.mp fun hmem => h (List.mem_cons.mpr hmem)
      rw [List.cons_append, linesOf, if_neg (Ne.symm hb)]
      by_cases hempty : front = []
      · subst hempty
        cases hlines : linesOf feed rest <;> simp [hlines]
      · rw [ih hempty hfront]
        rfl

/-- A line ends with the first line feed. -/
lemma linesOf_append {feed : α} {line : List α} (h : feed ∉ line) (rest : List α) :
    linesOf feed (line ++ feed :: rest) = (line ++ [feed]) :: linesOf feed rest := by
  have hfeed : linesOf feed (feed :: rest) = [feed] :: linesOf feed rest := by
    rw [linesOf, if_pos rfl]
  by_cases hempty : line = []
  · subst hempty
    exact hfeed
  · rw [linesOf_front hempty h, hfeed]
    rfl

/-- A line ends with the only line feed of it, or has none. -/
lemma linesOf_shape {feed : α} {text line : List α} (h : line ∈ linesOf feed text) :
    ∃ body, feed ∉ body ∧ (line = body ++ [feed] ∨ line = body) := by
  induction text generalizing line with
  | nil => simp [linesOf] at h
  | cons b text ih =>
      rw [linesOf] at h
      split_ifs at h with hb
      · rcases List.mem_cons.mp h with rfl | h
        · exact ⟨[], by simp, .inl (by simp [hb])⟩
        · exact ih h
      · have hcons : ∀ {body}, feed ∉ body → feed ∉ b :: body :=
          List.not_mem_cons_of_ne_of_not_mem (Ne.symm hb)
        cases hlines : linesOf feed text with
        | nil =>
            rw [hlines] at h
            obtain rfl := List.mem_singleton.mp h
            exact ⟨[b], hcons (by simp), .inr rfl⟩
        | cons first lines =>
            rw [hlines] at h ih
            rcases List.mem_cons.mp h with rfl | h
            · obtain ⟨body, hbody, hfirst⟩ := ih List.mem_cons_self
              refine ⟨b :: body, hcons hbody, hfirst.imp ?_ ?_⟩ <;> rintro rfl <;> rfl
            · exact ih (List.mem_cons_of_mem _ h)

end

/-- The lines of standard input. -/
def rawLines : List UInt8 → List (List UInt8) := linesOf 10

/-- `lines`: the line feed goes, and with it a carriage return in front of it. -/
def chomp (line : List UInt8) : List UInt8 :=
  if line.getLast? = some 10 then
    let line := line.dropLast
    if line.getLast? = some 13 then line.dropLast else line
  else line

/-- A line is read as a string. -/
def IsText (line : List UInt8) : Prop := (String.fromUTF8? ⟨line.toArray⟩).isSome

instance (line : List UInt8) : Decidable (IsText line) := inferInstanceAs (Decidable (_ = true))

/-- A line as it is typed: the text, and whether a carriage return stands in front of its line
feed. -/
structure TypedLine where
  text : List UInt8
  crlf : Bool

namespace TypedLine

/-- The bytes of a line. -/
def bytes (line : TypedLine) : List UInt8 := line.text ++ if line.crlf then [13, 10] else [10]

/-- Lines that are read as they were typed. -/
structure Typable (line : TypedLine) : Prop where
  isText : IsText line.text
  nonempty : line.text ≠ []
  noFeed : 10 ∉ line.text
  noReturn : line.crlf ∨ line.text.getLast? ≠ some 13

end TypedLine

/-- What ends a line goes. -/
lemma chomp_bytes {line : TypedLine} (h : line.Typable) : chomp line.bytes = line.text := by
  obtain ⟨text, crlf⟩ := line
  cases crlf with
  | true =>
      have hsplit : text ++ [13, 10] = text ++ [13] ++ [10] := by simp
      simp only [chomp, TypedLine.bytes, if_true, hsplit, List.getLast?_concat, List.dropLast_concat]
  | false =>
      have hreturn : text.getLast? ≠ some 13 := h.noReturn.resolve_left (by simp)
      simp only [chomp, TypedLine.bytes, Bool.false_eq_true, if_false, List.getLast?_concat, if_true,
        List.dropLast_concat, if_neg hreturn]

lemma isText_iff {bytes : List UInt8} : IsText bytes ↔ ByteArray.IsValidUTF8 ⟨bytes.toArray⟩ := by
  rw [IsText, String.fromUTF8?]
  split <;> simp_all

lemma isText_append {line rest : List UInt8} (h : IsText line) (h' : IsText rest) :
    IsText (line ++ rest) := by
  have hbytes : (⟨(line ++ rest).toArray⟩ : ByteArray) = ⟨line.toArray⟩ ++ ⟨rest.toArray⟩ := by
    apply ByteArray.ext
    simp
  rw [isText_iff] at h h' ⊢
  rw [hbytes]
  exact h.append h'

lemma TypedLine.Typable.isText_bytes {line : TypedLine} (h : line.Typable) : IsText line.bytes := by
  refine isText_append h.isText ?_
  cases line.crlf <;> decide

/-- The lines of the input are those that were typed. -/
lemma rawLines_typed {lines : List TypedLine} (h : ∀ line ∈ lines, line.Typable) :
    rawLines (lines.flatMap TypedLine.bytes) = lines.map TypedLine.bytes := by
  induction lines with
  | nil => rfl
  | cons line lines ih =>
      obtain ⟨hline, hlines⟩ := List.forall_mem_cons.mp h
      have hends : ∃ front, 10 ∉ front ∧ line.bytes = front ++ [10] := by
        obtain ⟨text, crlf⟩ := line
        cases crlf with
        | true => exact ⟨text ++ [13], by simpa using hline.noFeed, by simp [TypedLine.bytes]⟩
        | false => exact ⟨text, hline.noFeed, rfl⟩
      obtain ⟨front, hfeed, hbytes⟩ := hends
      rw [rawLines] at ih ⊢
      rw [List.flatMap_cons, hbytes, List.append_assoc, List.singleton_append,
        linesOf_append hfeed, ih hlines, List.map_cons, hbytes]

/-! ### The two loops -/

inductive Mode
  | data
  | rts
deriving DecidableEq

def Mode.frameType : Mode → UInt8
  | .data => wfbFrameTypeData
  | .rts => wfbFrameTypeRts

structure Args where
  iface : String
  streamId : UInt32
  mode : Mode

/-- The configurations that `main` makes of its arguments. -/
def txConfig (args : Args) : WfbTxConfig := ⟨args.iface, args.streamId, args.mode.frameType, 1, 40⟩

def rxConfig (args : Args) : WfbRxConfig := ⟨args.iface, args.streamId, true, 16⟩

/-- How the sending loop ends. -/
inductive Ending
  /-- There is no more input; `main` waits for the thread that receives. -/
  | eof
  /-- A line is not a string. -/
  | notText
  /-- A `send` fails. -/
  | failed (e : WfbError)

/-- What the sending loop leaves. -/
structure Typed where
  emitted : List (Emission Unit)
  ending : Ending

/-- The loop over the lines, behind `sent` calls of `send`; `answers` are those of `sendmsg`. -/
def sendLines (answers : ℕ → Except SysError ℤ) (tx : WfbTx) (sent : ℕ) (seq : UInt32) :
    List (List UInt8) → Checked Typed
  | [] => return ⟨[], .eof⟩
  | line :: lines => do
      if ¬ IsText line then return ⟨[], .notText⟩
      let payload := chomp line
      if payload = [] then sendLines answers tx sent seq lines
      else
        let out ← WfbTx.send tx payload seq (answers sent)
        match out.result with
        | .error e => return ⟨[], .failed e⟩
        | .ok _ =>
            let rest ← sendLines answers out.tx (sent + 1) (seq + 1) lines
            return { rest with
              emitted := (emission ⟨(), payload, seq, answers sent⟩ out).toList ++ rest.emitted }

/-- What the receiving thread leaves: the payloads and the metadata that it has printed, and the
receiver in the world. -/
structure Printing where
  frames : List (List UInt8 × WfbRxMeta)
  rx : WfbRx
  world : World

/-- The loop of the thread that receives, for a number of rounds.  It ends with the first error,
and the buffer is used again. -/
def printLoop : ℕ → WfbRx → List UInt8 → World → Checked Printing
  | 0, rx, _, world => return ⟨[], rx, world⟩
  | n + 1, rx, buf, world => do
      let out ← WfbRx.recv rx buf (fromMillis 1000) world
      match out.result with
      | some (.ok (some (len, rxMeta))) =>
          let rest ← printLoop n out.rx out.buf out.world
          return { rest with frames := (out.buf.take len, rxMeta) :: rest.frames }
      | some (.ok none) => printLoop n out.rx out.buf out.world
      | _ => return ⟨[], out.rx, out.world⟩

/-! ### What is said -/

/-- The payloads of the lines up to the first that is no string; empty ones are skipped. -/
def payloads (lines : List (List UInt8)) : List (List UInt8) :=
  ((lines.takeWhile fun line => decide (IsText line)).map chomp).filter fun payload => payload ≠ []

/-- The payloads up to the first whose `send` fails. -/
def accepted (answers : ℕ → Except SysError ℤ) : ℕ → List (List UInt8) → List (List UInt8)
  | _, [] => []
  | sent, payload :: rest =>
      if payload.length ≤ computeMaxPayload ∧ (answers sent).isOk then
        payload :: accepted answers (sent + 1) rest
      else []

/-- What a terminal says of the lines typed into it: their payloads, numbered from 1. -/
def said (answers : ℕ → Except SysError ℤ) (lines : List (List UInt8)) : List Content :=
  (accepted answers 0 (payloads lines)).mapIdx fun i payload => (payload, UInt32.ofNat (i + 1), 0)

lemma payloads_cons (line : List UInt8) (lines : List (List UInt8)) : payloads (line :: lines) =
    if IsText line then
      if chomp line = [] then payloads lines else chomp line :: payloads lines
    else [] := by
  by_cases htext : IsText line
  · by_cases hempty : chomp line = [] <;> simp [payloads, htext, hempty]
  · simp [payloads, htext]

lemma accepted_cons (answers : ℕ → Except SysError ℤ) (sent : ℕ) (seq : UInt32)
    (payload : List UInt8) (rest : List (List UInt8)) : accepted answers sent (payload :: rest) =
      if SendCall.Emits ⟨(), payload, seq, answers sent⟩ then
        payload :: accepted answers (sent + 1) rest
      else [] := rfl

/-- The payloads of lines that are typed are their texts. -/
lemma payloads_typed {lines : List TypedLine} (h : ∀ line ∈ lines, line.Typable) :
    payloads (rawLines (lines.flatMap TypedLine.bytes)) = lines.map TypedLine.text := by
  rw [rawLines_typed h]
  induction lines with
  | nil => rfl
  | cons line lines ih =>
      obtain ⟨hline, hlines⟩ := List.forall_mem_cons.mp h
      rw [List.map_cons, payloads_cons, if_pos hline.isText_bytes, chomp_bytes hline,
        if_neg hline.nonempty, ih hlines, List.map_cons]

/-- What is accepted ends in front of the first refused payload. -/
lemma accepted_eq_take {answers : ℕ → Except SysError ℤ} {sent k : ℕ} {ps : List (List UInt8)}
    (hk : k ≤ ps.length)
    (hbefore : ∀ i < k, ∀ p ∈ ps[i]?, p.length ≤ computeMaxPayload ∧ (answers (sent + i)).isOk)
    (hstop : ∀ p ∈ ps[k]?, ¬ (p.length ≤ computeMaxPayload ∧ (answers (sent + k)).isOk)) :
    accepted answers sent ps = ps.take k := by
  induction ps generalizing sent k with
  | nil => rw [accepted, List.take_nil]
  | cons p ps ih =>
      cases k with
      | zero =>
          have hrefused : ¬ (p.length ≤ computeMaxPayload ∧ (answers sent).isOk) := hstop p rfl
          rw [accepted, if_neg hrefused, List.take_zero]
      | succ k =>
          have hrest : accepted answers (sent + 1) ps = ps.take k := by
            refine ih (Nat.le_of_succ_le_succ hk) (fun i hi q hq => ?_) fun q hq => ?_
            · rw [add_right_comm, add_assoc]
              exact hbefore (i + 1) (by omega) q hq
            · rw [add_right_comm, add_assoc]
              exact hstop q hq
          have hfirst : p.length ≤ computeMaxPayload ∧ (answers sent).isOk :=
            hbefore 0 (by omega) p rfl
          rw [accepted, if_pos hfirst, hrest, List.take_succ_cons]

lemma isPrefix_accepted (answers : ℕ → Except SysError ℤ) (sent : ℕ) (ps : List (List UInt8)) :
    accepted answers sent ps <+: ps := by
  induction ps generalizing sent with
  | nil => exact List.nil_prefix
  | cons p ps ih =>
      rw [accepted]
      split_ifs
      · exact (List.prefix_cons_inj p).mpr (ih _)
      · exact List.nil_prefix

/-- What the sending loop has done. -/
structure TypedSpec (cfg : WfbTxConfig) (answers : ℕ → Except SysError ℤ) (sent : ℕ) (seq : UInt32)
    (lines : List (List UInt8)) (out : Typed) : Prop where
  contents : out.emitted.map (fun e => e.call.content) =
    (accepted answers sent (payloads lines)).mapIdx fun i payload =>
      (payload, seq + UInt32.ofNat i, 0)
  wellFormed : ∀ e ∈ out.emitted, e.WellFormed fun _ => cfg
  eof : out.ending = .eof ↔
    (∀ line ∈ lines, IsText line) ∧ accepted answers sent (payloads lines) = payloads lines

/-- The numbers of the payloads behind the first one. -/
lemma add_ofNat_succ (seq : UInt32) (i : ℕ) :
    seq + UInt32.ofNat (i + 1) = seq + 1 + UInt32.ofNat i := by
  have h1 : (1 : UInt32) = UInt32.ofNat 1 := rfl
  rw [UInt32.ofNat_add, ← h1, add_comm (UInt32.ofNat i), add_assoc]

/-- The loop emits what `accepted` says, and the handle's headers stay what they are. -/
lemma sendLines_spec {cfg : WfbTxConfig} (answers : ℕ → Except SysError ℤ) {tx : WfbTx}
    (h : WfbTx.HeaderInv cfg tx) (sent : ℕ) (seq : UInt32) (lines : List (List UInt8)) :
    ∃ out, sendLines answers tx sent seq lines = .ok out ∧
      TypedSpec cfg answers sent seq lines out := by
  induction lines generalizing tx sent seq with
  | nil => exact ⟨_, rfl, rfl, by simp, by simp [payloads, accepted]⟩
  | cons line lines ih =>
      by_cases htext : IsText line
      swap
      · refine ⟨⟨[], .notText⟩, ?_, ?_, by simp, by simp [htext]⟩
        · simp only [sendLines, if_pos htext, pure_eq_ok]
        · rw [payloads_cons, if_neg htext]
          rfl
      by_cases hempty : chomp line = []
      · obtain ⟨out, hout, hspec⟩ := ih h sent seq
        have hpayloads : payloads (line :: lines) = payloads lines := by
          rw [payloads_cons, if_pos htext, if_pos hempty]
        refine ⟨out, ?_, hpayloads ▸ hspec.contents, hspec.wellFormed, ?_⟩
        · simp only [sendLines, if_neg (not_not.mpr htext), if_pos hempty, hout]
        · rw [hpayloads, List.forall_mem_cons, and_iff_right htext]
          exact hspec.eof
      -- the payload is sent; the loop goes on exactly when that succeeds
      obtain ⟨out, hsend, hinv, hyes, -⟩ := @send_emission Unit (fun _ => cfg) tx
        ⟨(), chomp line, seq, answers sent⟩ h
      have hok := send_ok_iff h ⟨(), chomp line, seq, answers sent⟩ hsend
      dsimp only at hsend
      have hpayloads : payloads (line :: lines) = chomp line :: payloads lines := by
        rw [payloads_cons, if_pos htext, if_neg hempty]
      by_cases hemits : SendCall.Emits ⟨(), chomp line, seq, answers sent⟩
      · obtain ⟨e, he, hecall, hewf⟩ := hyes hemits
        obtain ⟨rest, hrest, hspec⟩ := ih hinv (sent + 1) (seq + 1)
        refine ⟨{ rest with emitted := e :: rest.emitted }, ?_, ?_, ?_, ?_⟩
        · simp only [sendLines, if_neg (not_not.mpr htext), if_neg hempty, hsend, ok_bind,
            hok.mpr hemits, hrest, he, Option.toList_some, List.singleton_append, pure_eq_ok]
        · rw [hpayloads, accepted_cons _ _ seq, if_pos hemits, List.map_cons, hspec.contents, hecall,
            List.mapIdx_cons]
          simp only [add_ofNat_succ]
          simp [SendCall.content]
        · exact List.forall_mem_cons.mpr ⟨hewf, hspec.wellFormed⟩
        · rw [hpayloads, accepted_cons _ _ seq, if_pos hemits, List.forall_mem_cons,
            and_iff_right htext, List.cons_inj_right]
          exact hspec.eof
      · obtain ⟨e, herror⟩ : ∃ e, out.result = .error e := by
          cases hout : out.result with
          | error e => exact ⟨e, rfl⟩
          | ok u => exact absurd (hok.mp hout) hemits
        refine ⟨⟨[], .failed e⟩, ?_, ?_, by simp, ?_⟩
        · simp only [sendLines, if_neg (not_not.mpr htext), if_neg hempty, hsend, ok_bind, herror,
            pure_eq_ok]
        · rw [hpayloads, accepted_cons _ _ seq, if_neg hemits]
          rfl
        · rw [hpayloads, accepted_cons _ _ seq, if_neg hemits]
          simp

/-! ### What is printed -/

/-- What the receiving thread has printed, frame by frame. -/
def Printing.printed (out : Printing) : List Content :=
  out.frames.map fun p => (p.1, p.2.seq, p.2.flags)

/-- The loop makes calls one after the other, with buffers of one length, and prints what they
hand over. -/
lemma printLoop_recvs {rx : WfbRx} (hinv : WfbRx.RingInv rx) (n : ℕ) (buf : List UInt8)
    (world : World) : ∃ out calls run, printLoop n rx buf world = .ok out ∧
      WfbRx.recvs rx world calls = .ok run ∧ out.printed = run.received ∧ out.rx = run.rx ∧
      out.world = run.world ∧ ∀ c ∈ calls, c.buf.length = buf.length := by
  induction n generalizing rx buf world with
  | zero => exact ⟨_, [], _, rfl, rfl, rfl, rfl, rfl, by simp⟩
  | succ n ih =>
      obtain ⟨out, hout, hspec⟩ := WfbRx.recv_spec hinv buf (fromMillis 1000) world
      obtain ⟨f, hanswer, -⟩ := hspec.frames
      obtain ⟨rest, calls, run, hrest, hrun, hprinted, hrx, hworld, hbuf⟩ :=
        ih hspec.inv out.buf out.world
      rw [hanswer.length_buf] at hbuf
      obtain ⟨step, hstep⟩ : ∃ step : WfbRx.RecvStep,
          step = ⟨rx, ⟨buf, fromMillis 1000⟩, world, out⟩ := ⟨_, rfl⟩
      -- behind a frame and behind a timeout the loop goes on
      have hnext : out.result ≠ none → WfbRx.recvs rx world (step.call :: calls) =
          .ok { run with steps := step :: run.steps } := by
        intro hresult
        simp only [hstep, WfbRx.recvs, hout, ok_bind, if_neg hresult, hrun, pure_eq_ok]
      have hlast : WfbRx.recvs rx world [step.call] = .ok ⟨[step], out.rx, out.world⟩ := by
        by_cases hresult : out.result = none
        · simp only [hstep, WfbRx.recvs, hout, ok_bind, if_pos hresult, pure_eq_ok]
        · simp only [hstep, WfbRx.recvs, hout, ok_bind, if_neg hresult, pure_eq_ok]
      have hreceived : ∀ run' : WfbRx.RecvRun,
          WfbRx.RecvRun.received { run' with steps := step :: run'.steps } =
            out.received.toList ++ run'.received := by
        intro run'
        rw [WfbRx.RecvRun.received, List.filterMap_cons, hstep]
        cases out.received <;> rfl
      have hall : ∀ c ∈ step.call :: calls, c.buf.length = buf.length :=
        List.forall_mem_cons.mpr ⟨by rw [hstep], hbuf⟩
      have hone : ∀ c ∈ [step.call], c.buf.length = buf.length := by simp [hstep]
      rcases hresult : out.result with _ | _ | _ | ⟨len, rxMeta⟩
      · refine ⟨⟨[], out.rx, out.world⟩, [step.call], _, ?_, hlast, ?_, rfl, rfl, hone⟩
        · simp only [printLoop, hout, ok_bind, hresult, pure_eq_ok]
        · simp [Printing.printed, WfbRx.RecvRun.received, hstep, RecvOut.received, hresult]
      · refine ⟨⟨[], out.rx, out.world⟩, [step.call], _, ?_, hlast, ?_, rfl, rfl, hone⟩
        · simp only [printLoop, hout, ok_bind, hresult, pure_eq_ok]
        · simp [Printing.printed, WfbRx.RecvRun.received, hstep, RecvOut.received, hresult]
      · refine ⟨rest, step.call :: calls, _, ?_, hnext (by simp [hresult]), ?_, hrx, hworld, hall⟩
        · simp only [printLoop, hout, ok_bind, hresult, hrest]
        · rw [hreceived, hprinted, RecvOut.received, hresult]
          rfl
      · refine ⟨{ rest with frames := (out.buf.take len, rxMeta) :: rest.frames },
          step.call :: calls, _, ?_, hnext (by simp [hresult]), ?_, hrx, hworld, hall⟩
        · simp only [printLoop, hout, ok_bind, hresult, hrest, pure_eq_ok]
        · rw [hreceived, Printing.printed, List.map_cons, ← Printing.printed, hprinted,
            RecvOut.received, hresult]
          rfl

/-- A loop that is attended prints a frame in each round, until there are no more. -/
lemma printLoop_attended {rx : WfbRx} {n : ℕ} {buf : List UInt8} {world : World} {out : Printing}
    (hout : printLoop n rx buf world = .ok out) (hinv : WfbRx.RingInv rx)
    (hatt : rx.Attended (fromMillis 1000) none world) (hbuf : buf ≠ []) :
    min n (rx.ahead world).length ≤ out.printed.length := by
  induction n generalizing rx buf world out with
  | zero => exact (Nat.min_le_left _ _).trans (Nat.zero_le _)
  | succ n ih =>
      cases hahead : rx.ahead world with
      | nil => exact (Nat.min_le_right _ _).trans (Nat.zero_le _)
      | cons f fs =>
          obtain ⟨first, hfirst, hanswer, hspec, rfl, hatt'⟩ :=
            WfbRx.recv_takes hatt hinv hbuf le_rfl hahead
          obtain ⟨len, rxMeta, hresult⟩ : ∃ len rxMeta,
              first.result = some (.ok (some (len, rxMeta))) := by
            cases hanswer with
            | frame _ hresult => exact ⟨_, _, hresult⟩
          simp only [printLoop, hfirst, ok_bind, hresult] at hout
          obtain ⟨rest, hrest, hout⟩ := bind_eq_ok.mp hout
          obtain rfl := Except.ok.inj hout
          have hbuf' : first.buf ≠ [] := by
            rw [← List.length_pos_iff] at hbuf ⊢
            rwa [hanswer.length_buf]
          have hle := ih hrest hspec.inv hatt' hbuf'
          simp only [Printing.printed, List.map_cons, List.length_cons] at hle ⊢
          exact (Nat.succ_min_succ _ _).le.trans (Nat.succ_le_succ hle)

/-! ### From one terminal to the other -/

/-- A program that has come to its two loops; `main` refuses the stream 0. -/
structure Terminal where
  streamIdArg : String
  args : Args
  parsed : parseU32 streamIdArg = .ok args.streamId
  nonzero : args.streamId ≠ 0
  tx : WfbTx
  rx : WfbRx
  txOpened : (WfbTx.open (txConfig args)).Returns (.ok tx)
  rxOpened : (WfbRx.open (rxConfig args)).Returns (.ok rx)

/-- The handle of a terminal has the headers of its configuration. -/
lemma Terminal.headers (a : Terminal) : WfbTx.HeaderInv (txConfig a.args) a.tx := by
  obtain ⟨-, fd, htx⟩ := WfbTx.returns_open.mp a.txOpened
  exact htx ▸ WfbTx.opened_inv _ _

/-- The numbers that the lines get. -/
lemma one_add_ofNat (i : ℕ) : 1 + UInt32.ofNat i = UInt32.ofNat (i + 1) := by
  rw [UInt32.ofNat_add, add_comm]
  rfl

/-- Frames of one configuration that come to a terminal in batches are printed, queued or in the
batches left; those of another stream are not.  In a world that is attended they are printed, one in
each round. -/
lemma Terminal.prints (b : Terminal) {cfg : WfbTxConfig} {emitted : List (Emission Unit)}
    (hwf : ∀ e ∈ emitted, e.WellFormed fun _ => cfg) {filter : String → List UInt8 → Bool}
    (hfilter : Implements filter) {batches : List (Batch Unit)}
    (hemitted : batches.flatMap Batch.emitted = emitted)
    (hair : ∀ batch ∈ batches, OnAir b.rx batch.emitted (batch.packets.map CapturedPacket.bytes))
    (hroom : ∀ batch ∈ batches, batch.emitted.length ≤ 16) {world : World}
    (hworld : world.captures = batches.map (Batch.handedOut filter b.rx)) (rounds : ℕ)
    {sent : List Content} (hsent : sent =
      if cfg.streamId = b.args.streamId then emitted.map (fun e => e.call.content) else []) :
    ∃ out k, printLoop rounds b.rx (List.replicate (4096 + 1) 0) world = .ok out ∧
      out.world.captures = (batches.drop k).map (Batch.handedOut filter b.rx) ∧
      out.printed ++ out.rx.queue.map Frame.content ++
        (batches.drop k).flatMap (Batch.contents (fun _ => cfg) b.args.streamId) = sent ∧
      (b.rx.Attended (fromMillis 1000) none world → sent.length ≤ rounds →
        out.printed = sent) := by
  obtain ⟨hinv, -⟩ := WfbRx.opened_inv b.rxOpened
  obtain ⟨out, calls, run, hout, hrun, hprinted, hrx, hend, hbuf⟩ :=
    printLoop_recvs hinv rounds (List.replicate (4096 + 1) 0) world
  have hsize : b.rx.ringSize = 16 := by
    obtain ⟨-, -, fd, hfresh⟩ := WfbRx.returns_open.mp b.rxOpened
    rw [hfresh]
    rfl
  have hcontents : ∀ batch ∈ batches, (batch.contents (fun _ => cfg)
      (rxConfig b.args).streamId).length ≤ b.rx.ringSize := fun batch hbatch =>
    (Batch.length_contents_le _ _ _).trans (by rw [hsize]; exact hroom batch hbatch)
  have hlarge : ∀ c ∈ calls, computeMaxPayload ≤ c.buf.length := fun c hc => by
    rw [hbuf c hc, List.length_replicate]
    decide
  have hstreams : (emitted.filter fun _ => decide (cfg.streamId = b.args.streamId)).map
      (fun e => e.call.content) = sent := by
    rw [hsent]
    by_cases hsame : cfg.streamId = b.args.streamId <;> simp [hsame]
  subst hemitted
  obtain ⟨hcaptures, hall, -⟩ := run_delivers b.rxOpened hfilter hair hwf hworld hcontents hlarge
    hrun hstreams
  rw [← hprinted, ← hrx] at hall
  refine ⟨out, run.drained.length, hout, hend ▸ hcaptures, hall, fun hatt henough => ?_⟩
  have hahead := length_ahead b.rxOpened hfilter hair hwf hworld hcontents hstreams
  have hprogress := printLoop_attended hout hinv hatt (List.cons_ne_nil _ _)
  rw [hahead, min_eq_right henough] at hprogress
  exact received_all hall hprogress

/-- What the loop over the lines has emitted is what is said. -/
lemma TypedSpec.said {cfg : WfbTxConfig} {answers : ℕ → Except SysError ℤ}
    {lines : List (List UInt8)} {typed : Typed} (h : TypedSpec cfg answers 0 1 lines typed) :
    typed.emitted.map (fun e => e.call.content) = said answers lines := by
  rw [h.contents, Examples.said]
  simp only [one_add_ofNat]

/-- **From one terminal to another.** Of any input of one terminal, another one on the same stream
prints what is said: the lines in order with the numbers from 1, up to the first that is no string
or that `send` refuses.  What is missing at any time is queued, or in the batches left; in a world
that is attended nothing is, behind as many rounds.  On another stream nothing is printed. -/
theorem chat (a b : Terminal) (input : List UInt8) (answers : ℕ → Except SysError ℤ)
    {filter : String → List UInt8 → Bool} (hfilter : Implements filter) :
    ∃ typed, sendLines answers a.tx 0 1 (rawLines input) = .ok typed ∧
      ∀ batches : List (Batch Unit), batches.flatMap Batch.emitted = typed.emitted →
        (∀ batch ∈ batches, OnAir b.rx batch.emitted (batch.packets.map CapturedPacket.bytes)) →
        (∀ batch ∈ batches, batch.emitted.length ≤ 16) →
      ∀ world : World, world.captures = batches.map (Batch.handedOut filter b.rx) →
      ∀ rounds : ℕ, ∃ out k, printLoop rounds b.rx (List.replicate (4096 + 1) 0) world = .ok out ∧
        out.world.captures = (batches.drop k).map (Batch.handedOut filter b.rx) ∧
        out.printed ++ out.rx.queue.map Frame.content ++
            (batches.drop k).flatMap
              (Batch.contents (fun _ => txConfig a.args) b.args.streamId) =
          (if a.args.streamId = b.args.streamId then said answers (rawLines input) else []) ∧
        (b.rx.Attended (fromMillis 1000) none world →
          (said answers (rawLines input)).length ≤ rounds → out.printed =
            if a.args.streamId = b.args.streamId then said answers (rawLines input) else []) := by
  obtain ⟨typed, htyped, hspec⟩ := sendLines_spec answers a.headers 0 1 (rawLines input)
  refine ⟨typed, htyped, fun batches hemitted hair hroom world hworld rounds => ?_⟩
  rw [← hspec.said]
  obtain ⟨out, k, hout, hcaptures, hall, hattended⟩ := b.prints hspec.wellFormed hfilter hemitted
    hair hroom hworld rounds rfl
  refine ⟨out, k, hout, hcaptures, hall, fun hatt henough => hattended hatt ?_⟩
  split_ifs
  · exact henough
  · exact Nat.zero_le _

/-- A terminal on stream 1 of `wlan0`. -/
def onStream1 : Terminal where
  streamIdArg := " 0x1"
  args := ⟨"wlan0", 1, .data⟩
  parsed := by decide
  nonzero := by decide
  tx := WfbTx.opened (txConfig ⟨"wlan0", 1, .data⟩) 3
  rx := WfbRx.fresh (rxConfig ⟨"wlan0", 1, .data⟩) ⟨4, filterExp 1⟩
  txOpened := WfbTx.returns_open.mpr
    ⟨⟨by decide, by decide, .inl rfl, by decide, by decide, .inr (.inr rfl)⟩, 3, rfl⟩
  rxOpened := WfbRx.returns_open.mpr ⟨by decide, by decide, 4, rfl⟩

/-- The frame of the line `hi`. -/
def hiFrame : List UInt8 :=
  [8, 1, 0, 0, 255, 255, 255, 255, 255, 255, 0x57, 0x42, 0, 0, 0, 1, 0x57, 0x42, 0, 0, 0, 1,
    0, 0, 0, 0, 0, 0, 1, 0, 2, 0, 0x68, 0x69]

/-- A world with the frame in it. -/
def hiWorld : World :=
  ⟨[0, 1, 2], [.ready], [[wholePacket (bareHeader ++ hiFrame) (by decide)].filter fun p =>
    eval onStream1.rx.pcap.filterExp p.bytes]⟩

/-- The first round finds it. -/
lemma attended_hiWorld : onStream1.rx.Attended (fromMillis 1000) none hiWorld := by
  have haccepted : onStream1.rx.acceptedFrames
      ([wholePacket (bareHeader ++ hiFrame) (by decide)].filter fun p =>
        eval onStream1.rx.pcap.filterExp p.bytes) ≠ [] := by decide +kernel
  exact .starts (.accepted (by decide) haccepted .finished)

theorem onStream1_chat : ∃ out,
    printLoop 3 onStream1.rx (List.replicate (4096 + 1) 0) hiWorld = .ok out ∧
      out.printed = [([0x68, 0x69], 1, 0)] ∧ out.rx.queue = [] ∧ out.world.captures = [] := by
  obtain ⟨typed, htyped, hprinted⟩ := chat onStream1 onStream1 [0x68, 0x69, 10] (fun _ => .ok 0)
    implements_eval
  obtain ⟨e, he, hframe⟩ : ∃ e : Emission Unit, typed.emitted = [e] ∧ e.frame.drop 13 = hiFrame := by
    have hrun : sendLines (fun _ => .ok 0) onStream1.tx 0 1 (rawLines [0x68, 0x69, 10]) = .ok _ := rfl
    obtain rfl := Except.ok.inj (htyped.symm.trans hrun)
    exact ⟨_, rfl, by decide +kernel⟩
  have hcaptured : Captured e.frame bareHeader [] _
      (wholePacket (bareHeader ++ hiFrame) (by decide)).bytes :=
    ⟨by rw [bytes_wholePacket, hframe, List.append_nil], rfl, rfl, by decide, by decide, rfl⟩
  obtain ⟨out, k, hout, hcaptures, hall, hattended⟩ := hprinted
    [⟨[e], [wholePacket (bareHeader ++ hiFrame) (by decide)]⟩] he.symm
    (by
      intro batch hbatch
      obtain rfl := List.mem_singleton.mp hbatch
      exact .frame hcaptured .nil)
    (by
      intro batch hbatch
      obtain rfl := List.mem_singleton.mp hbatch
      exact show 1 ≤ 16 by decide)
    hiWorld rfl 3
  have hsaid := hattended attended_hiWorld (by decide)
  rw [← hsaid, List.append_assoc, List.append_right_eq_self] at hall
  obtain ⟨hqueue, hleft⟩ := List.append_eq_nil_iff.mp hall
  refine ⟨out, hout, hsaid, List.map_eq_nil_iff.mp hqueue, ?_⟩
  cases k with
  | zero => exact absurd hleft (List.cons_ne_nil _ _)
  | succ k => simpa using hcaptures

/-- **Lines as they were typed.** Lines of text, each with a line feed or with a carriage return and
a line feed behind it, are sent as their bytes with the numbers from 1, up to the first that is too
long or that `sendmsg` refuses; the program comes to the end of its input when there is none. -/
theorem sendLines_typed (a : Terminal) {lines : List TypedLine} (h : ∀ line ∈ lines, line.Typable)
    (answers : ℕ → Except SysError ℤ) {k : ℕ} (hk : k ≤ lines.length)
    (hbefore : ∀ i < k, ∀ line ∈ lines[i]?,
      line.text.length ≤ computeMaxPayload ∧ (answers i).isOk)
    (hstop : ∀ line ∈ lines[k]?, ¬ (line.text.length ≤ computeMaxPayload ∧ (answers k).isOk)) :
    ∃ typed, sendLines answers a.tx 0 1 (rawLines (lines.flatMap TypedLine.bytes)) = .ok typed ∧
      typed.emitted.map (fun e => e.call.content) =
        (lines.take k).mapIdx (fun i line => (line.text, UInt32.ofNat (i + 1), 0)) ∧
      (∀ e ∈ typed.emitted, e.WellFormed fun _ => txConfig a.args) ∧
      (typed.ending = .eof ↔ k = lines.length) := by
  obtain ⟨typed, htyped, hspec⟩ :=
    sendLines_spec answers a.headers 0 1 (rawLines (lines.flatMap TypedLine.bytes))
  have haccepted : accepted answers 0 (payloads (rawLines (lines.flatMap TypedLine.bytes))) =
      (lines.take k).map TypedLine.text := by
    rw [payloads_typed h, List.map_take]
    refine accepted_eq_take (by rwa [List.length_map]) (fun i hi p hp => ?_) fun p hp => ?_
    · rw [List.getElem?_map] at hp
      obtain ⟨line, hline, rfl⟩ := Option.mem_map.mp hp
      rw [zero_add]
      exact hbefore i hi line hline
    · rw [List.getElem?_map] at hp
      obtain ⟨line, hline, rfl⟩ := Option.mem_map.mp hp
      rw [zero_add]
      exact hstop line hline
  refine ⟨typed, htyped, ?_, hspec.wellFormed, ?_⟩
  · rw [hspec.contents, haccepted]
    refine List.ext_getElem? fun i => ?_
    simp only [List.getElem?_mapIdx, List.getElem?_map, Option.map_map, one_add_ofNat]
    rfl
  · have htext : ∀ line ∈ rawLines (lines.flatMap TypedLine.bytes), IsText line := by
      rw [rawLines_typed h]
      exact List.forall_mem_map.mpr fun line hline => (h line hline).isText_bytes
    rw [hspec.eof, haccepted, payloads_typed h, and_iff_right htext]
    constructor
    · intro hall
      have hlength := congrArg List.length hall
      rw [List.length_map, List.length_map, List.length_take] at hlength
      omega
    · rintro rfl
      rw [List.take_length]

/-- Two lines, with different ends. -/
def twoLines : List TypedLine := [⟨[0x68, 0x69], false⟩, ⟨[0x68], true⟩]

lemma typable_twoLines : ∀ line ∈ twoLines, line.Typable := by
  intro line hline
  rcases List.mem_pair.mp hline with rfl | rfl
  · exact ⟨by decide, by decide, by decide, by decide⟩
  · exact ⟨by decide, by decide, by decide, by decide⟩

theorem twoLines_sent : ∃ typed, sendLines (fun _ => .ok 0) onStream1.tx 0 1
      (rawLines [0x68, 0x69, 10, 0x68, 13, 10]) = .ok typed ∧
    typed.emitted.map (fun e => e.call.content) = [([0x68, 0x69], 1, 0), ([0x68], 2, 0)] ∧
    typed.ending = .eof := by
  obtain ⟨typed, htyped, hcontents, -, heof⟩ := sendLines_typed onStream1 typable_twoLines
    (fun _ => .ok 0) (le_refl 2)
    (by
      intro i _ line hline
      rcases List.mem_pair.mp (List.mem_of_getElem? hline) with rfl | rfl
      · exact ⟨by decide, rfl⟩
      · exact ⟨by decide, rfl⟩)
    (by simp [twoLines])
  exact ⟨typed, htyped, hcontents, heof.mpr rfl⟩

end Examples

end WfbRs
