import WfbRs.Examples.SimpleTxrx
import WfbRs.Python.Session

/-!
# The same program in Python (`python/examples/simple_txrx.py`)

The loop of `run_simple_txrx` over its input, which it reads as text in UTF-8; no line ends are
translated.  It takes the line feed off a line and nothing else, where the other program takes a
carriage return in front of it too.  What the two say of one input differs by these.
-/

namespace WfbRs

open Rust Descriptor PcapFilter Python

namespace Examples

namespace PyTxrx

/-! ### The loop -/

/-- The `Tx` that `run_simple_txrx` makes; the rest of its arguments are defaults. -/
def txArgs (capi : Except PyError Unit) (iface : String) (streamId : ℤ) : TxArgs :=
  ⟨capi, iface, streamId, 0x08, 1, 20⟩

/-- `encode("utf-8")`. -/
def utf8 (text : List Char) : List UInt8 := encode (String.ofList text)

/-- `line.rstrip("\n").encode("utf-8")`. -/
def payloadOf (line : List Char) : List UInt8 := utf8 (line.rdropWhile (· = '\n'))

/-- What the loop leaves; `raised` is what ends it before the input does. -/
structure Typed where
  emitted : List (Emission Unit)
  raised : Option PyError

/-- What was sent. -/
def Typed.contents (typed : Typed) : List Content := typed.emitted.map fun e => e.call.content

/-- The loop over the lines, behind `sent` calls of `send`; `answers` are those of `sendmsg`. -/
def sendLoop (answers : ℕ → Except SysError ℤ) (tx : Tx) (sent : ℕ) (seq : ℤ) :
    List (List Char) → Typed
  | [] => ⟨[], none⟩
  | line :: lines =>
      let payload := payloadOf line
      if payload = [] then sendLoop answers tx sent seq lines
      else
        let out := tx.send payload seq (answers sent)
        match out.result with
        | .error e => ⟨[], some e⟩
        | .ok _ =>
            let rest := sendLoop answers out.tx (sent + 1) (seq + 1) lines
            { rest with
              emitted := (pyEmission ⟨(), payload, seq, answers sent⟩ out).toList ++ rest.emitted }

/-- The payloads of the lines; empty ones are skipped. -/
def texts (lines : List (List Char)) : List (List UInt8) :=
  (lines.map payloadOf).filter fun payload => payload ≠ []

lemma texts_cons (line : List Char) (lines : List (List Char)) : texts (line :: lines) =
    if payloadOf line = [] then texts lines else payloadOf line :: texts lines := by
  by_cases hempty : payloadOf line = [] <;> simp [texts, hempty]

/-- What the sending loop has done. -/
structure TypedSpec (cfg : WfbTxConfig) (answers : ℕ → Except SysError ℤ) (sent : ℕ) (seq : ℤ)
    (lines : List (List Char)) (out : Typed) : Prop where
  contents : out.contents =
    (accepted answers sent (texts lines)).mapIdx fun i payload => (payload, cUint32 (seq + i), 0)
  wellFormed : ∀ e ∈ out.emitted, e.WellFormed fun _ => cfg
  raised : out.raised = none ↔ accepted answers sent (texts lines) = texts lines

/-- A call succeeds exactly when it emits. -/
lemma send_ok_iff {cfg : WfbTxConfig} {h : WfbTx} (hinv : WfbTx.HeaderInv cfg h)
    (c : PySend Unit) : (Tx.send ⟨some h, false⟩ c.payload c.seq c.rc).result = .ok () ↔
      c.call.Emits := by
  by_cases hlen : c.payload.length ≤ computeMaxPayload
  · obtain ⟨out, hsend, -⟩ := @send_emission Unit (fun _ => cfg) h c.call hinv
    have hemits : c.call.Emits ↔ c.rc.isOk := and_iff_right hlen
    rw [@Tx.send_native h c.payload c.seq c.rc out hlen hsend, hemits]
    cases hrc : c.rc.isOk with
    | true => exact iff_of_true rfl rfl
    | false => simp [raiseForCode, wfbRsOk, wfbRsErrIo, throw, throwThe, MonadExceptOf.throw]
  · obtain ⟨e, hsend⟩ := Tx.send_too_large h c.seq c.rc hlen
    rw [hsend]
    exact iff_of_false (by simp) fun hemits => hlen hemits.1

/-- The loop emits what `accepted` says, and the handle's headers stay what they are. -/
lemma sendLoop_spec {cfg : WfbTxConfig} (answers : ℕ → Except SysError ℤ) {h : WfbTx}
    (hinv : WfbTx.HeaderInv cfg h) (sent : ℕ) (seq : ℤ) (lines : List (List Char)) :
    TypedSpec cfg answers sent seq lines (sendLoop answers ⟨some h, false⟩ sent seq lines) := by
  induction lines generalizing h sent seq with
  | nil => exact ⟨rfl, by simp [sendLoop], by simp [sendLoop, texts, accepted]⟩
  | cons line lines ih =>
      by_cases hempty : payloadOf line = []
      · have htexts : texts (line :: lines) = texts lines := by rw [texts_cons, if_pos hempty]
        have hspec := ih hinv sent seq
        simp only [sendLoop, if_pos hempty]
        exact ⟨htexts ▸ hspec.contents, hspec.wellFormed, htexts ▸ hspec.raised⟩
      -- the payload is sent; the loop goes on exactly when that succeeds
      obtain ⟨out, hsend, hinv', hyes, -⟩ := @send_emission Unit (fun _ => cfg) h
        ⟨(), payloadOf line, cUint32 seq, answers sent⟩ hinv
      obtain ⟨htx, hemission⟩ := @pySend_eq Unit h ⟨(), payloadOf line, seq, answers sent⟩ out hsend
      have hok := send_ok_iff hinv ⟨(), payloadOf line, seq, answers sent⟩
      dsimp only [PySend.call] at htx hemission hok
      have htexts : texts (line :: lines) = payloadOf line :: texts lines := by
        rw [texts_cons, if_neg hempty]
      have haccepted := accepted_cons answers sent (cUint32 seq) (payloadOf line) (texts lines)
      by_cases hemits :
          SendCall.Emits (⟨(), payloadOf line, cUint32 seq, answers sent⟩ : SendCall Unit)
      · obtain ⟨e, he, hecall, hewf⟩ := hyes hemits
        have hspec := ih hinv' (sent + 1) (seq + 1)
        rw [if_pos hemits] at haccepted
        simp only [sendLoop, if_neg hempty, hok.mpr hemits, htx, hemission, he, Option.toList_some,
          List.singleton_append]
        refine ⟨?_, List.forall_mem_cons.mpr ⟨hewf, hspec.wellFormed⟩, ?_⟩
        · have hrest := hspec.contents
          rw [Typed.contents] at hrest
          rw [htexts, haccepted, Typed.contents, List.map_cons, hrest, hecall, List.mapIdx_cons]
          simp only [Nat.cast_zero, add_zero, Nat.cast_succ, add_assoc, add_comm (1 : ℤ)]
          rfl
        · rw [htexts, haccepted, List.cons_inj_right]
          exact hspec.raised
      · rw [if_neg hemits] at haccepted
        obtain ⟨e, herror⟩ : ∃ e, (Tx.send ⟨some h, false⟩ (payloadOf line) seq
            (answers sent)).result = .error e := by
          cases hout : (Tx.send ⟨some h, false⟩ (payloadOf line) seq (answers sent)).result with
          | error e => exact ⟨e, rfl⟩
          | ok u => exact absurd (hok.mp hout) hemits
        simp only [sendLoop, if_neg hempty, herror]
        refine ⟨?_, by simp, ?_⟩
        · rw [htexts, haccepted]
          rfl
        · rw [htexts, haccepted]
          simp

/-! ### Text and bytes -/

lemma utf8_eq (text : List Char) : utf8 text = text.flatMap String.utf8EncodeChar := by
  simp [utf8, encode, List.utf8Encode]

lemma utf8_append (text rest : List Char) : utf8 (text ++ rest) = utf8 text ++ utf8 rest := by
  simp only [utf8_eq, List.flatMap_append]

lemma utf8_cons (c : Char) (text : List Char) :
    utf8 (c :: text) = String.utf8EncodeChar c ++ utf8 text := by
  simp only [utf8_eq, List.flatMap_cons]

lemma isText_utf8 (text : List Char) : IsText (utf8 text) := by
  rw [isText_iff]
  exact (String.ofList text).isValidUTF8

/-- An ASCII byte stands for its character alone. -/
lemma eq_of_mem_encodeChar {c a : Char} (ha : a.toNat < 128)
    (h : UInt8.ofNat a.toNat ∈ String.utf8EncodeChar c) : c = a := by
  have hne : ∀ n : ℕ, 128 ≤ n → n < 256 → UInt8.ofNat a.toNat ≠ UInt8.ofNat n := by
    intro n hlow hhigh heq
    have hnat := congrArg UInt8.toNat heq
    rw [UInt8.toNat_ofNat', UInt8.toNat_ofNat'] at hnat
    omega
  unfold String.utf8EncodeChar at h
  simp only at h
  split_ifs at h with h₁ h₂ h₃
  · have hnat := congrArg UInt8.toNat (List.mem_singleton.mp h)
    simp only [UInt8.toNat_ofNat'] at hnat
    refine Char.toNat_inj.mp ?_
    have hc : c.toNat = c.val.toNat := rfl
    omega
  -- the bytes of the longer encodings are 128 or more
  all_goals
    simp (disch := omega) only [List.mem_cons, hne, List.not_mem_nil, or_self] at h

/-- The lines of the bytes are the bytes of the lines. -/
lemma rawLines_utf8 (text : List Char) :
    rawLines (utf8 text) = (linesOf '\n' text).map utf8 := by
  induction text with
  | nil => rfl
  | cons c text ih =>
      rw [rawLines] at ih ⊢
      by_cases hc : c = '\n'
      · subst hc
        rw [utf8_cons, linesOf, if_pos rfl, List.map_cons, ← ih]
        rfl
      · have hfeed : 10 ∉ String.utf8EncodeChar c := fun hmem =>
          hc (eq_of_mem_encodeChar (a := '\n') (by decide) hmem)
        rw [utf8_cons, linesOf_front String.utf8EncodeChar_ne_nil hfeed, ih, linesOf, if_neg hc]
        cases linesOf '\n' text with
        | nil => simp [utf8_eq]
        | cons line lines => simp [utf8_cons]

lemma feed_not_mem_utf8 {body : List Char} (h : '\n' ∉ body) : 10 ∉ utf8 body := by
  intro hmem
  rw [utf8_eq] at hmem
  obtain ⟨c, hc, hfeed⟩ := List.mem_flatMap.mp hmem
  obtain rfl := eq_of_mem_encodeChar (a := '\n') (by decide) hfeed
  exact h hc

/-- The last byte of a text is a carriage return if and only if its last character is. -/
lemma getLast_utf8 (body : List Char) :
    (utf8 body).getLast? = some 13 ↔ body.getLast? = some '\r' := by
  rcases List.eq_nil_or_concat body with rfl | ⟨front, c, rfl⟩
  · simp [utf8_eq]
  · rw [List.concat_eq_append, utf8_append, utf8_eq [c], List.flatMap_singleton,
      List.getLast?_append_of_ne_nil _ String.utf8EncodeChar_ne_nil, List.getLast?_concat]
    constructor
    · intro hlast
      exact congrArg some (eq_of_mem_encodeChar (a := '\r') (by decide) (List.mem_of_getLast? hlast))
    · intro hc
      obtain rfl := Option.some.inj hc
      rfl

lemma suffix_iff {body : List Char} :
    ['\r', '\n'] <:+ body ++ ['\n'] ↔ body.getLast? = some '\r' :=
  (show ['\r'] ++ ['\n'] <:+ body ++ ['\n'] ↔ _ from List.suffix_append_self_iff).trans
    List.singleton_suffix_iff_getLast?_eq_some

/-- A carriage return is all by which the payloads of a line differ. -/
lemma payloadOf_eq {text line : List Char} (h : line ∈ linesOf '\n' text) :
    payloadOf line = chomp (utf8 line) ++ if ['\r', '\n'] <:+ line then [13] else [] := by
  obtain ⟨body, hbody, hline⟩ := linesOf_shape h
  have hpayload : payloadOf line = utf8 body := by
    have hself : body.rdropWhile (· = '\n') = body := by
      refine List.rdropWhile_eq_self_iff.mpr fun hne hlast => hbody ?_
      rw [← of_decide_eq_true hlast]
      exact List.getLast_mem hne
    rw [payloadOf]
    rcases hline with rfl | rfl
    · rw [List.rdropWhile_concat_pos _ _ _ (by decide), hself]
    · rw [hself]
  rw [hpayload]
  rcases hline with rfl | rfl
  · have hfeed : utf8 (body ++ ['\n']) = utf8 body ++ [10] := by
      rw [utf8_append]
      rfl
    rw [hfeed, chomp, List.getLast?_concat, if_pos rfl, List.dropLast_concat]
    simp only [getLast_utf8, suffix_iff]
    split_ifs with hreturn
    · obtain ⟨front, rfl⟩ := List.getLast?_eq_some_iff.mp hreturn
      have hfront : utf8 (front ++ ['\r']) = utf8 front ++ [13] := utf8_append _ _
      rw [hfront, List.dropLast_concat]
    · rw [List.append_nil]
  · have hlast : (utf8 line).getLast? ≠ some 10 := fun hlast =>
      feed_not_mem_utf8 hbody (List.mem_of_getLast? hlast)
    have hsuffix : ¬ ['\r', '\n'] <:+ line := fun hsuffix => hbody (hsuffix.subset (by simp))
    rw [chomp, if_neg hlast, if_neg hsuffix, List.append_nil]

/-! ### What the two programs say -/

/-- What is said of payloads that are accepted: they are numbered from 1. -/
lemma TypedSpec.said {cfg : WfbTxConfig} {answers : ℕ → Except SysError ℤ}
    {lines : List (List Char)} {typed : Typed} (h : TypedSpec cfg answers 0 1 lines typed) :
    typed.contents =
      (accepted answers 0 (texts lines)).mapIdx fun i payload =>
        (payload, UInt32.ofNat (i + 1), 0) := by
  have hnumber : ∀ i : ℕ, cUint32 (1 + i) = UInt32.ofNat (i + 1) := by
    intro i
    rw [← UInt32.toNat_inj, ← Nat.cast_inj (R := ℤ), toNat_cUint32, UInt32.toNat_ofNat']
    omega
  rw [h.contents]
  simp only [hnumber]

lemma payloads_rawLines (text : List Char) : payloads (rawLines (utf8 text)) =
    ((linesOf '\n' text).map fun line => chomp (utf8 line)).filter fun payload => payload ≠ [] := by
  have hall : (rawLines (utf8 text)).takeWhile (fun line => decide (IsText line)) =
      rawLines (utf8 text) := by
    rw [List.takeWhile_eq_self_iff, rawLines_utf8]
    exact List.forall_mem_map.mpr fun line _ => decide_eq_true (isText_utf8 line)
  rw [payloads, hall, rawLines_utf8, List.map_map]
  rfl

/-- Without carriage returns at the ends of lines the payloads are the same. -/
lemma texts_eq_payloads {text : List Char}
    (h : ∀ line ∈ linesOf '\n' text, ¬ ['\r', '\n'] <:+ line) :
    texts (linesOf '\n' text) = payloads (rawLines (utf8 text)) := by
  rw [payloads_rawLines, texts]
  congr 1
  refine List.map_congr_left fun line hline => ?_
  rw [payloadOf_eq hline, if_neg (h line hline), List.append_nil]

/-- With one of them there are more bytes in the ones than in the others. -/
lemma length_texts_lt {text line : List Char} (hline : line ∈ linesOf '\n' text)
    (h : ['\r', '\n'] <:+ line) : (payloads (rawLines (utf8 text))).flatten.length <
      (texts (linesOf '\n' text)).flatten.length := by
  rw [payloads_rawLines, texts, List.flatten_filter_ne_nil, List.flatten_filter_ne_nil,
    List.length_flatten, List.length_flatten, List.map_map, List.map_map]
  refine List.sum_lt_sum _ _ (fun line hline => ?_) ⟨line, hline, ?_⟩
  · simp only [Function.comp_apply]
    rw [payloadOf_eq hline, List.length_append]
    exact Nat.le_add_right _ _
  · simp only [Function.comp_apply]
    rw [payloadOf_eq hline, if_pos h, List.length_append]
    exact Nat.lt_succ_self _

lemma payloads_of_contents (ps : List (List UInt8)) (f : ℕ → UInt32 × UInt8) :
    (ps.mapIdx fun i payload => (payload, f i)).map Prod.fst = ps := by
  refine List.ext_getElem? fun i => ?_
  simp only [List.getElem?_map, List.getElem?_mapIdx, Option.map_map]
  exact Option.map_id'

/-- The handle of the object has the headers of its configuration. -/
lemma exists_headers {capi : Except PyError Unit} {iface : String} {streamId : ℤ} {tx : Tx}
    (h : (txArgs capi iface streamId).Constructs tx) : ∃ name handle, tx = ⟨some handle, false⟩ ∧
      WfbTx.HeaderInv ((txArgs capi iface streamId).config name) handle := by
  obtain ⟨-, -, name, fd, -, -, rfl⟩ := TxArgs.constructs_iff.mp h
  exact ⟨name, _, rfl, WfbTx.opened_inv _ _⟩

/-- **One text, two programs.** The program in Python and the other one say the same of a text in
which no line ends with a carriage return and a line feed, and they come to its end or stop
together.  Of any other text that the program in Python says to the end they say different things. -/
theorem said_alike (text : List Char) (answers : ℕ → Except SysError ℤ) (a : Terminal)
    {capi : Except PyError Unit} {iface : String} {streamId : ℤ} {tx : Tx}
    (htx : (txArgs capi iface streamId).Constructs tx) :
    ∃ typed, sendLines answers a.tx 0 1 (rawLines (utf8 text)) = .ok typed ∧
      ((∀ line ∈ linesOf '\n' text, ¬ ['\r', '\n'] <:+ line) →
        (sendLoop answers tx 0 1 (linesOf '\n' text)).contents =
            typed.emitted.map (fun e => e.call.content) ∧
          ((sendLoop answers tx 0 1 (linesOf '\n' text)).raised = none ↔ typed.ending = .eof)) ∧
      ((sendLoop answers tx 0 1 (linesOf '\n' text)).raised = none →
        (sendLoop answers tx 0 1 (linesOf '\n' text)).contents =
            typed.emitted.map (fun e => e.call.content) →
          ∀ line ∈ linesOf '\n' text, ¬ ['\r', '\n'] <:+ line) := by
  obtain ⟨name, handle, rfl, hinv⟩ := exists_headers htx
  have hpython := sendLoop_spec answers hinv 0 1 (linesOf '\n' text)
  obtain ⟨typed, htyped, hspec⟩ := sendLines_spec answers a.headers 0 1 (rawLines (utf8 text))
  have htext : ∀ line ∈ rawLines (utf8 text), IsText line := by
    rw [rawLines_utf8]
    exact List.forall_mem_map.mpr fun line _ => isText_utf8 line
  refine ⟨typed, htyped, fun hends => ?_, fun hraised hsame line hline hends => ?_⟩
  · rw [hpython.said, hspec.said, said, hpython.raised, hspec.eof, and_iff_right htext,
      texts_eq_payloads hends]
    exact ⟨rfl, Iff.rfl⟩
  · -- the bytes that are said are as many, and they are all of the one program's
    have hpayloads := congrArg (List.map Prod.fst) hsame
    rw [hpython.said, hspec.said, said, hpython.raised.mp hraised, payloads_of_contents,
      payloads_of_contents] at hpayloads
    have hle := (isPrefix_accepted answers 0 (payloads (rawLines (utf8 text)))).flatten.length_le
    rw [← hpayloads] at hle
    exact absurd (length_texts_lt hline hends) (Nat.not_lt_of_le hle)

/-- A line with a carriage return. -/
def returned : List Char := ['h', 'i', '\r', '\n']

theorem returned_unlike : ∃ typed,
    sendLines (fun _ => .ok 0) onStream1.tx 0 1 (rawLines (utf8 returned)) = .ok typed ∧
      (sendLoop (fun _ => .ok 0) ⟨some (WfbTx.opened (tx1.config "wlan0") 3), false⟩ 0 1
        (linesOf '\n' returned)).contents ≠ typed.emitted.map (fun e => e.call.content) := by
  obtain ⟨typed, htyped, -, hends⟩ := said_alike returned (fun _ => .ok 0) onStream1
    (show (txArgs (.ok ()) "wlan0" 1).Constructs _ from constructs_tx1)
  refine ⟨typed, htyped, fun hsame => ?_⟩
  exact hends rfl hsame returned (by decide) (by decide)

/-- What the program in Python says of a text: the lines without their line feeds, numbered
from 1. -/
def saidOf (answers : ℕ → Except SysError ℤ) (text : List Char) : List Content :=
  (accepted answers 0 (texts (linesOf '\n' text))).mapIdx fun i payload =>
    (payload, UInt32.ofNat (i + 1), 0)

/-- **From Python to a terminal.** Of a text that the program in Python reads, another program on
the same stream prints what is said, up to the first line that `send` refuses.  What is missing at
any time is queued, or in the batches left; in a world that is attended nothing is, behind as many
rounds.  On another stream nothing is printed. -/
theorem python_chat {capi : Except PyError Unit} {iface : String} {streamId : ℤ} {tx : Tx}
    (htx : (txArgs capi iface streamId).Constructs tx) (b : Terminal) (text : List Char)
    (answers : ℕ → Except SysError ℤ) {filter : String → List UInt8 → Bool}
    (hfilter : Implements filter) (batches : List (Batch Unit))
    (hemitted : batches.flatMap Batch.emitted =
      (sendLoop answers tx 0 1 (linesOf '\n' text)).emitted)
    (hair : ∀ batch ∈ batches, OnAir b.rx batch.emitted (batch.packets.map CapturedPacket.bytes))
    (hroom : ∀ batch ∈ batches, batch.emitted.length ≤ 16) (world : World)
    (hworld : world.captures = batches.map (Batch.handedOut filter b.rx)) (rounds : ℕ) :
    ∃ out k, printLoop rounds b.rx (List.replicate (4096 + 1) 0) world = .ok out ∧
      out.world.captures = (batches.drop k).map (Batch.handedOut filter b.rx) ∧
      out.printed ++ out.rx.queue.map Frame.content ++
          (batches.drop k).flatMap (Batch.contents
            (fun _ => (txArgs capi iface streamId).config iface) b.args.streamId) =
        (if cUint32 streamId = b.args.streamId then saidOf answers text else []) ∧
      (b.rx.Attended (fromMillis 1000) none world → (saidOf answers text).length ≤ rounds →
        out.printed = if cUint32 streamId = b.args.streamId then saidOf answers text else []) := by
  obtain ⟨name, handle, rfl, hinv⟩ := exists_headers htx
  have hspec := sendLoop_spec answers hinv 0 1 (linesOf '\n' text)
  rw [saidOf, ← hspec.said]
  -- the streams are the same whatever name the library has read
  obtain ⟨out, k, hout, hcaptures, hall, hattended⟩ := b.prints hspec.wellFormed hfilter hemitted
    hair hroom hworld rounds rfl
  refine ⟨out, k, hout, hcaptures, hall, fun hatt henough => hattended hatt ?_⟩
  split_ifs
  · exact henough
  · exact Nat.zero_le _

theorem hi_printed : ∃ out,
    printLoop 3 onStream1.rx (List.replicate (4096 + 1) 0) hiWorld = .ok out ∧
      out.printed = [([0x68, 0x69], 1, 0)] ∧ out.rx.queue = [] ∧ out.world.captures = [] := by
  obtain ⟨e, he, hframe⟩ : ∃ e : Emission Unit,
      (sendLoop (fun _ => .ok 0) ⟨some (WfbTx.opened (tx1.config "wlan0") 3), false⟩ 0 1
        (linesOf '\n' ['h', 'i', '\n'])).emitted = [e] ∧ e.frame.drop 13 = hiFrame :=
    ⟨_, rfl, by decide +kernel⟩
  have hcaptured : Captured e.frame bareHeader [] _
      (wholePacket (bareHeader ++ hiFrame) (by decide)).bytes :=
    ⟨by rw [bytes_wholePacket, hframe, List.append_nil], rfl, rfl, by decide, by decide, rfl⟩
  obtain ⟨out, k, hout, hcaptures, hall, hattended⟩ := python_chat
    (show (txArgs (.ok ()) "wlan0" 1).Constructs _ from constructs_tx1) onStream1 _ _
    implements_eval [⟨[e], [wholePacket (bareHeader ++ hiFrame) (by decide)]⟩] he.symm
    (by
      intro batch hbatch
      obtain rfl := List.mem_singleton.mp hbatch
      exact .frame hcaptured .nil)
    (by
      intro batch hbatch
      obtain rfl := List.mem_singleton.mp hbatch
      exact show 1 ≤ 16 by decide)
    hiWorld rfl 3
  have hsaid := hattended attended_hiWorld (by decide)
  rw [← hsaid, List.append_assoc, List.append_right_eq_self] at hall
  obtain ⟨hqueue, hleft⟩ := List.append_eq_nil_iff.mp hall
  refine ⟨out, hout, hsaid, List.map_eq_nil_iff.mp hqueue, ?_⟩
  cases k with
  | zero => exact absurd hleft (List.cons_ne_nil _ _)
  | succ k => simpa using hcaptures

end PyTxrx

end Examples

end WfbRs
