import WfbRs.Lib.Machine
import WfbRs.Tx

/-!
# Runs of a transmitter

Calls of `send` in any number, with any payloads and any answers of `sendmsg`.  The calls that
pass the size check are numbered from 0, and the number alone decides the two bytes of the
802.11 header that change: `numberedFrame`.  A call that does not pass changes nothing.
-/

namespace WfbRs

open Rust Descriptor

namespace WfbTx

/-! ### Calls -/

/-- A call of `send`, with the answer of `sendmsg`. -/
structure Call where
  payload : List UInt8
  seq : UInt32
  rc : Except SysError ℤ

/-- The call passes the size check. -/
def Call.Fits (c : Call) : Prop := c.payload.length ≤ computeMaxPayload

instance (c : Call) : Decidable c.Fits := inferInstanceAs (Decidable (_ ≤ _))

/-- One call. -/
def sendStep (tx : WfbTx) (c : Call) : Checked (Sent × WfbTx) := do
  let out ← send tx c.payload c.seq c.rc
  return (out, out.tx)

/-- A run of calls. -/
abbrev SendRun : Type := Machine.Run WfbTx Call Sent

/-- What a run hands to `sendmsg`, call by call. -/
def handed (r : SendRun) : List (List (List UInt8)) := r.events.filterMap fun e => e.output.iovecs

/-! ### Numbered frames -/

/-- The 802.11 header of frame `k`. -/
def numberedHeader (cfg : WfbTxConfig) (k : ℕ) : List UInt8 :=
  headerFront cfg ++ Words.toLE 2 (16 * k % 2 ^ 16)

/-- Frame `k` of a handle, with what the call has put into it. -/
def numberedFrame (cfg : WfbTxConfig) (k : ℕ) (c : Call) : List (List UInt8) :=
  [(radiotapOf cfg).toList, numberedHeader cfg k, (frameHeader c.payload c.seq).bytes, c.payload]

/-- The transmitter behind `k` frames. -/
structure Numbered (cfg : WfbTxConfig) (k : ℕ) (tx : WfbTx) : Prop extends HeaderInv cfg tx where
  seq : tx.ieee80211Seq = UInt16.ofNat (16 * k)

/-- What a handle does to its calls: those that pass the size check are counted. -/
def countStep (cfg : WfbTxConfig) (k : ℕ) (c : Call) : Option (List (List UInt8)) × ℕ :=
  if c.Fits then (some (numberedFrame cfg k c), k + 1) else (none, k)

/-- What one call keeps. -/
structure SendStepSpec (cfg : WfbTxConfig) (tx : WfbTx) (c : Call) (out : Sent) (tx' : WfbTx) :
    Prop where
  front : tx'.ieeeHdr.toList.take 22 = headerFront cfg
  radiotap : tx'.radiotapHt = radiotapOf cfg
  /-- A call that is refused for its size changes nothing and hands over nothing. -/
  refused : ¬ c.Fits → tx' = tx ∧ out.iovecs = none ∧ ∃ e, out.result = .error e
  /-- Any other call succeeds exactly when `sendmsg` does. -/
  result : c.Fits → (out.result = .ok () ↔ ∃ n, c.rc = .ok n)

lemma opened_numbered (cfg : WfbTxConfig) (fd : ℕ) : Numbered cfg 0 (opened cfg fd) :=
  { opened_inv cfg fd with seq := rfl }

/-- The two bytes of the source's counter, low byte first. -/
lemma toLE_seq (n : UInt16) :
    Words.toLE 2 n.toNat = [(n &&& 0xff).toUInt8, ((n >>> 8) &&& 0xff).toUInt8] := by
  have hmask : ∀ m : UInt16, (m &&& 0xff).toUInt8 = UInt8.ofNat m.toNat := by
    intro m
    apply UInt8.toNat_inj.mp
    rw [UInt16.toNat_toUInt8, UInt16.toNat_and, UInt8.toNat_ofNat']
    exact (congrArg (· % 2 ^ 8) (Nat.and_two_pow_sub_one_eq_mod m.toNat 8)).trans (Nat.mod_mod _ _)
  have hshift : (n >>> 8).toNat = n.toNat / 256 := by
    rw [UInt16.toNat_shiftRight]
    exact Nat.shiftRight_eq_div_pow _ _
  rw [hmask, hmask, hshift]
  simp [Words.toLE, List.range_succ_eq_map]

/-- Two patches behind the first 22 bytes of an array of 24. -/
lemma drop_set_set {l : List UInt8} (hlen : l.length = 24) (a b : UInt8) :
    ((l.set frameSeqLb a).set frameSeqHb b).drop 22 = [a, b] := by
  obtain ⟨x, y, hxy⟩ : ∃ x y, l.drop 22 = [x, y] := by
    have htwo : (l.drop 22).length = 2 := by
      rw [List.length_drop, hlen]
    obtain ⟨x, y, h⟩ := List.length_eq_two.mp htwo
    exact ⟨x, y, h⟩
  rw [List.drop_set, if_neg (by decide), List.drop_set, if_neg (by decide), hxy]
  rfl

/-- The part of the header that a `send` writes, and the counter behind it. -/
lemma send_seq {tx : WfbTx} {payload : List UInt8} (hlen : payload.length ≤ computeMaxPayload)
    {seq : UInt32} {rc : Except SysError ℤ} {out : Sent} (h : send tx payload seq rc = .ok out) :
    out.tx.ieeeHdr.toList.drop 22 = Words.toLE 2 tx.ieee80211Seq.toNat ∧
      out.tx.ieee80211Seq = tx.ieee80211Seq + 16 := by
  have hfits : ¬ payload.length > computeMaxPayload := Nat.not_lt_of_le hlen
  have hdrop : ∀ ieeeHdr : Vector UInt8 24,
      ((ieeeHdr.set frameSeqLb (tx.ieee80211Seq &&& 0xff).toUInt8 (by decide)).set frameSeqHb
        ((tx.ieee80211Seq >>> 8) &&& 0xff).toUInt8 (by decide)).toList.drop 22 =
      Words.toLE 2 tx.ieee80211Seq.toNat := by
    intro ieeeHdr
    rw [Vector.toList_set, Vector.toList_set, drop_set_set (Vector.length_toList), toLE_seq]
  cases rc with
  | error e =>
      simp only [send, if_neg hfits, WfbFrameHeader.encode_eq, ok_bind, pure_eq_ok] at h
      obtain rfl := Except.ok.inj h
      exact ⟨hdrop tx.ieeeHdr, rfl⟩
  | ok n =>
      simp only [send, if_neg hfits, WfbFrameHeader.encode_eq, ok_bind, pure_eq_ok] at h
      obtain rfl := Except.ok.inj h
      exact ⟨hdrop tx.ieeeHdr, rfl⟩

/-! ### One call -/

section Step

variable {cfg : WfbTxConfig} {tx : WfbTx} {k : ℕ}

/-- The counter as a number. -/
lemma Numbered.seq_toNat (h : Numbered cfg k tx) : tx.ieee80211Seq.toNat = 16 * k % 2 ^ 16 := by
  rw [h.seq, UInt16.toNat_ofNat']

/-- A call that is refused for its size. -/
lemma sendStep_refused (h : Numbered cfg k tx) {c : Call} (hc : ¬ c.Fits) :
    ∃ out, sendStep tx c = .ok (out, tx) ∧ out.iovecs = none ∧ SendStepSpec cfg tx c out tx := by
  obtain ⟨e, hsend⟩ := send_too_large tx c.seq c.rc hc
  refine ⟨⟨tx, none, .error e⟩, by rw [sendStep, hsend]; rfl, rfl, ?_⟩
  exact
    { front := h.front
      radiotap := h.radiotap
      refused := fun _ => ⟨rfl, rfl, e, rfl⟩
      result := fun hfits => absurd hfits hc }

/-- Behind `k` frames, the next call that fits hands over frame `k`. -/
lemma sendStep_fits (h : Numbered cfg k tx) {c : Call} (hc : c.Fits) :
    ∃ out tx', sendStep tx c = .ok (out, tx') ∧ out.iovecs = some (numberedFrame cfg k c) ∧
      Numbered cfg (k + 1) tx' ∧ SendStepSpec cfg tx c out tx' := by
  obtain ⟨out, hsend, hinv, -, hiovecs, hresult⟩ := send_spec h.toHeaderInv hc c.seq c.rc
  obtain ⟨hdrop, hnext⟩ := send_seq hc hsend
  have hheader : out.tx.ieeeHdr.toList = numberedHeader cfg k := by
    rw [numberedHeader, ← h.seq_toNat, ← hdrop, ← hinv.front, List.take_append_drop]
  have hseq : out.tx.ieee80211Seq = UInt16.ofNat (16 * (k + 1)) := by
    rw [hnext, h.seq, Nat.mul_succ, UInt16.ofNat_add]
    rfl
  refine ⟨out, out.tx, by rw [sendStep, hsend]; rfl, ?_, { hinv with seq := hseq }, ?_⟩
  · rw [hiovecs, iovecsOf, hheader, numberedFrame]
  · exact
      { front := hinv.front
        radiotap := hinv.radiotap
        refused := fun hno => absurd hc hno
        result := fun _ => hresult }

/-- A call does what `countStep` says. -/
lemma sendStep_spec (h : Numbered cfg k tx) (c : Call) :
    ∃ out tx', sendStep tx c = .ok (out, tx') ∧ out.iovecs = (countStep cfg k c).1 ∧
      Numbered cfg (countStep cfg k c).2 tx' ∧ SendStepSpec cfg tx c out tx' := by
  by_cases hc : c.Fits
  · rw [countStep, if_pos hc]
    exact sendStep_fits h hc
  · rw [countStep, if_neg hc]
    obtain ⟨out, hstep, hnone, hspec⟩ := sendStep_refused h hc
    exact ⟨out, tx, hstep, hnone, h, hspec⟩

end Step

/-- What `countStep` hands over: the calls that fit, each with its number. -/
lemma exec_countStep (cfg : WfbTxConfig) (k : ℕ) (calls : List Call) :
    (Machine.exec (countStep cfg) k calls).1.reduceOption =
      (calls.filter fun c => decide c.Fits).mapIdx fun i c => numberedFrame cfg (k + i) c := by
  induction calls generalizing k with
  | nil => rfl
  | cons c cs ih =>
      rw [Machine.exec, countStep]
      by_cases hc : c.Fits
      · rw [if_pos hc, List.reduceOption_cons_of_some, List.filter_cons_of_pos (by simpa using hc),
          List.mapIdx_cons, ih]
        simp only [Nat.add_zero, Nat.add_assoc, Nat.add_comm 1]
      · rw [if_neg hc, List.reduceOption_cons_of_none, List.filter_cons_of_neg (by simpa using hc),
          ih]

/-- A run of calls does not fault; it hands over what `countStep` says. -/
lemma run_sendStep {cfg : WfbTxConfig} {tx : WfbTx} (h : Numbered cfg 0 tx) (calls : List Call) :
    ∃ r, Machine.run sendStep tx calls = .ok r ∧ r.events.map Machine.Event.input = calls ∧
      handed r = (calls.filter fun c => decide c.Fits).mapIdx (numberedFrame cfg) ∧
      HeaderInv cfg r.final ∧
      ∀ e ∈ r.events, SendStepSpec cfg e.before e.input e.output e.after := by
  obtain ⟨r, hrun, hinputs, houts, hfinal, hsteps⟩ := Machine.run_simulates
    (fun tx k => Numbered cfg k tx) (countStep cfg) Sent.iovecs
    (fun e => SendStepSpec cfg e.before e.input e.output e.after) (fun _ => True)
    (fun tx k c htx _ => sendStep_spec htx c) h calls (fun _ _ => trivial)
  refine ⟨r, hrun, hinputs, ?_, hfinal.toHeaderInv, hsteps⟩
  have hexec := exec_countStep cfg 0 calls
  simp only [Nat.zero_add] at hexec
  rw [← hexec, ← houts, handed, List.reduceOption, List.filterMap_map]
  rfl

/-! ### The sequence control field -/

/-- The sequence control field of an 802.11 header. -/
def seqControl (ieee : List UInt8) : ℕ := Words.ofLE (ieee.drop frameSeqLb)

/-- Its fragment number, the low four bits. -/
def fragmentNumber (ieee : List UInt8) : ℕ := seqControl ieee % 16

/-- Its sequence number, the other twelve. -/
def sequenceNumber (ieee : List UInt8) : ℕ := seqControl ieee / 16

/-- The 802.11 header that was handed over as number `k`. -/
def headerOf (r : SendRun) (k : ℕ) : Option (List UInt8) := (handed r)[k]?.bind fun iovecs => iovecs[1]?

lemma length_headerFront (cfg : WfbTxConfig) : (headerFront cfg).length = 22 := by
  simp [headerFront]

lemma drop_numberedHeader (cfg : WfbTxConfig) (k : ℕ) :
    (numberedHeader cfg k).drop 22 = Words.toLE 2 (16 * k % 2 ^ 16) :=
  List.drop_left' (length_headerFront cfg)

lemma seqControl_numberedHeader (cfg : WfbTxConfig) (k : ℕ) :
    seqControl (numberedHeader cfg k) = 16 * k % 2 ^ 16 := by
  have hlt : 16 * k % 2 ^ 16 < 256 ^ 2 := Nat.mod_lt _ (by omega)
  rw [seqControl, frameSeqLb, drop_numberedHeader, Words.ofLE_toLE hlt]

lemma fragmentNumber_numberedHeader (cfg : WfbTxConfig) (k : ℕ) :
    fragmentNumber (numberedHeader cfg k) = 0 := by
  rw [fragmentNumber, seqControl_numberedHeader]
  omega

lemma sequenceNumber_numberedHeader (cfg : WfbTxConfig) (k : ℕ) :
    sequenceNumber (numberedHeader cfg k) = k % 4096 := by
  rw [sequenceNumber, seqControl_numberedHeader]
  omega

/-- A header handed over in a run of numbered frames is the one of its number. -/
lemma headerOf_eq_some {cfg : WfbTxConfig} {r : SendRun} {calls : List Call}
    (h : handed r = calls.mapIdx (numberedFrame cfg)) {k : ℕ} {ieee : List UInt8}
    (hk : headerOf r k = some ieee) : ieee = numberedHeader cfg k := by
  obtain ⟨iovecs, hiovecs, hieee⟩ := Option.bind_eq_some_iff.mp hk
  rw [h, List.getElem?_mapIdx, Option.map_eq_some_iff] at hiovecs
  obtain ⟨c, -, rfl⟩ := hiovecs
  exact (Option.some.inj hieee).symm

/-- What a run of calls does to the frames it hands over. -/
structure SendRunSpec (cfg : WfbTxConfig) (calls : List Call) (r : SendRun) : Prop where
  inputs : r.events.map Machine.Event.input = calls
  /-- The calls that pass the size check hand over one frame each, numbered from 0. -/
  numbered : handed r = (calls.filter fun c => decide c.Fits).mapIdx (numberedFrame cfg)
  /-- Every call keeps the rest of the headers, and a refused one keeps everything. -/
  steps : ∀ e ∈ r.events, SendStepSpec cfg e.before e.input e.output e.after
  /-- The header of frame `k`. -/
  header : ∀ k ieee, headerOf r k = some ieee → ieee.take 22 = headerFront cfg ∧
    ieee.drop 22 = Words.toLE 2 (16 * k % 2 ^ 16) ∧ fragmentNumber ieee = 0
  /-- The sequence number advances by one modulo 4096. -/
  next : ∀ k ieee ieee', headerOf r k = some ieee → headerOf r (k + 1) = some ieee' →
    sequenceNumber ieee' = (sequenceNumber ieee + 1) % 4096
  /-- Any 4096 consecutive frames carry distinct sequence numbers. -/
  distinct : ∀ i j ieee ieee', i < j → j < i + 4096 → headerOf r i = some ieee →
    headerOf r j = some ieee' → sequenceNumber ieee ≠ sequenceNumber ieee'

/-- **The transmitter's headers.** In every run of calls on an opened transmitter, the `k`-th call
that passes the size check hands over the header with sequence number `k`; the rest of the header
and the radiotap bytes stay what they were after `open`, and a refused call changes nothing. -/
theorem send_header_invariant {cfg : WfbTxConfig} {tx : WfbTx}
    (h : (WfbTx.open cfg).Returns (.ok tx)) (calls : List Call) :
    tx.ieeeHdr.toList.take 22 = headerFront cfg ∧ tx.radiotapHt = radiotapOf cfg ∧
      ∃ r, Machine.run sendStep tx calls = .ok r ∧ SendRunSpec cfg calls r := by
  obtain ⟨-, fd, rfl⟩ := returns_open.mp h
  have hopened := opened_numbered cfg fd
  refine ⟨hopened.front, hopened.radiotap, ?_⟩
  obtain ⟨r, hrun, hinputs, hhanded, -, hsteps⟩ := run_sendStep hopened calls
  refine ⟨r, hrun, ?_⟩
  exact
    { inputs := hinputs
      numbered := hhanded
      steps := hsteps
      header := by
        intro k ieee hk
        rw [headerOf_eq_some hhanded hk]
        exact ⟨List.take_left' (length_headerFront cfg), drop_numberedHeader cfg k,
          fragmentNumber_numberedHeader cfg k⟩
      next := by
        intro k ieee ieee' hk hk'
        rw [headerOf_eq_some hhanded hk, headerOf_eq_some hhanded hk',
          sequenceNumber_numberedHeader, sequenceNumber_numberedHeader]
        omega
      distinct := by
        intro i j ieee ieee' hij hwin hi hj
        rw [headerOf_eq_some hhanded hi, headerOf_eq_some hhanded hj,
          sequenceNumber_numberedHeader, sequenceNumber_numberedHeader]
        omega }

/-! ### A handle and three calls -/

/-- Stream 1 on `wlan0`, with the default index and bandwidth. -/
def stream1 : WfbTxConfig := ⟨"wlan0", 1, wfbFrameTypeData, 0, 0⟩

lemma open_stream1 : (WfbTx.open stream1).Returns (.ok (opened stream1 3)) :=
  returns_open.mpr ⟨⟨by decide, by decide, .inl rfl, by decide, by decide, .inl rfl⟩, 3, rfl⟩

/-- One byte more than fits. -/
def tooLarge : List UInt8 := List.replicate 4014 0

lemma length_tooLarge : tooLarge.length = 4014 := List.length_replicate

/-- A call that fails, one that is too large, and one that succeeds. -/
def threeCalls : List Call :=
  [⟨[0x68], 1, .error ⟨105, "ENOBUFS"⟩⟩, ⟨tooLarge, 2, .ok 0⟩, ⟨[0x69], 3, .ok 46⟩]

theorem stream1_header_invariant : ∃ r, Machine.run sendStep (opened stream1 3) threeCalls = .ok r ∧
    (headerOf r 0).map (List.drop 22) = some [0, 0] ∧
    (headerOf r 1).map (List.drop 22) = some [16, 0] ∧ headerOf r 2 = none := by
  obtain ⟨-, -, r, hrun, hspec⟩ := send_header_invariant open_stream1 threeCalls
  have hfilter : (threeCalls.filter fun c => decide c.Fits) =
      [⟨[0x68], 1, .error ⟨105, "ENOBUFS"⟩⟩, ⟨[0x69], 3, .ok 46⟩] := by
    simp [threeCalls, Call.Fits, length_tooLarge]
  have hhanded := hspec.numbered
  rw [hfilter] at hhanded
  refine ⟨r, hrun, ?_, ?_, ?_⟩
  · rw [headerOf, hhanded]
    rfl
  · rw [headerOf, hhanded]
    rfl
  · rw [headerOf, hhanded]
    rfl

end WfbTx

end WfbRs
