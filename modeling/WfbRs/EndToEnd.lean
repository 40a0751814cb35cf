import WfbRs.Lib.PcapFilter
import WfbRs.Rx.Runs
import WfbRs.Tx

/-!
# From the senders to a receiver

Transmitters on any streams send in any interleaving; the receiver's driver replaces their
radiotap header by one of its own; packets that the parser rejects come in between.  A receiver
opened on a stream then enqueues what was sent on that stream, in order, and nothing else.
-/

namespace WfbRs

open Rust Descriptor PcapFilter

/-! ### The installed filter -/

/-- The digits of `{:08x}`. -/
def hexDigits (n : UInt32) : List ℕ := (List.range 8).map fun i => n.toNat / 16 ^ (7 - i) % 16

lemma toList_hex08 (n : UInt32) : (hex08 n).toList = (hexDigits n).map Nat.digitChar := by
  rw [hex08, String.toList_ofList, hexDigits, List.map_map]
  congr 1

lemma toList_filterExp (t : UInt32) : (filterExp t).toList =
    ['e', 't', 'h', 'e', 'r', '[', '0', 'x', '0', 'a', ':', '2', ']', '=', '=', '0', 'x', '5', '7',
      '4', '2', ' ', '&', '&', ' ', 'e', 't', 'h', 'e', 'r', '[', '0', 'x', '0', 'c', ':', '4', ']',
      ' ', '=', '=', ' ', '0', 'x'] ++ (hexDigits t).map Nat.digitChar := by
  have happend : (filterExp t).toList = "ether[0x0a:2]==0x5742 && ether[0x0c:4] == 0x".toList ++
      (hex08 t).toList := String.toList_append
  simp only [happend, toList_hex08]
  simp

lemma ofDigits_hexDigits (n : UInt32) : ofDigits 16 (hexDigits n) = n.toNat := by
  have h := n.toNat_lt
  simp only [ofDigits, hexDigits, List.range_succ_eq_map, List.range_zero, List.map_cons,
    List.map_nil, List.foldl_cons, List.foldl_nil]
  norm_num
  omega

/-- What the filter expression of a receiver asks for, on every stream. -/
lemma parse_filterExp (t : UInt32) :
    parse (filterExp t) = some [⟨10, 2, 0x5742⟩, ⟨12, 4, t.toNat⟩] := by
  have hds : ∀ d ∈ hexDigits t, d < 16 := by
    intro d hd
    obtain ⟨i, -, rfl⟩ := List.mem_map.mp hd
    exact Nat.mod_lt _ (by omega)
  have hnum := number_hex (show hexDigits t ≠ [] by simp [hexDigits]) hds
  rw [ofDigits_hexDigits] at hnum
  rw [parse, toList_filterExp]
  -- the stream id is kept abstract, so that the two comparisons can be evaluated
  obtain ⟨rest, hrest⟩ : ∃ rest, rest = (hexDigits t).map Nat.digitChar := ⟨_, rfl⟩
  rw [← hrest] at hnum ⊢
  have hsecond : comparison (' ' :: 'e' :: 't' :: 'h' :: 'e' :: 'r' :: '[' :: '0' :: 'x' :: '0' ::
      'c' :: ':' :: '4' :: ']' :: ' ' :: '=' :: '=' :: ' ' :: '0' :: 'x' :: rest) =
      (number (' ' :: '0' :: 'x' :: rest)).bind fun p => some (⟨12, 4, p.1⟩, p.2) := rfl
  rw [hnum, Option.bind_some] at hsecond
  have hlast : ∀ n, conjunction (n + 1) (' ' :: 'e' :: 't' :: 'h' :: 'e' :: 'r' :: '[' :: '0' ::
      'x' :: '0' :: 'c' :: ':' :: '4' :: ']' :: ' ' :: '=' :: '=' :: ' ' :: '0' :: 'x' :: rest) =
      some [⟨12, 4, t.toNat⟩] := by
    intro n
    rw [conjunction, hsecond]
    rfl
  have hfirst : ∀ n (cs : List Char), conjunction (n + 1) ('e' :: 't' :: 'h' :: 'e' :: 'r' :: '[' ::
      '0' :: 'x' :: '0' :: 'a' :: ':' :: '2' :: ']' :: '=' :: '=' :: '0' :: 'x' :: '5' :: '7' ::
      '4' :: '2' :: ' ' :: '&' :: '&' :: cs) =
      (conjunction n cs).bind fun rest => some (⟨10, 2, 0x5742⟩ :: rest) := fun n cs => rfl
  simp only [List.cons_append, List.nil_append, List.length_cons, hfirst, hlast, Option.bind_some]

/-! ### Sending -/

/-- A call of `send` on one of the handles, with the answer of `sendmsg`. -/
structure SendCall (ι : Type) where
  handle : ι
  payload : List UInt8
  seq : UInt32
  rc : Except SysError ℤ

/-- The call is accepted: the payload fits and `sendmsg` takes the frame. -/
def SendCall.Emits {ι : Type} (c : SendCall ι) : Prop :=
  c.payload.length ≤ computeMaxPayload ∧ c.rc.isOk = true

instance {ι : Type} (c : SendCall ι) : Decidable c.Emits := inferInstanceAs (Decidable (_ ∧ _))

/-- A frame on the air, with the call that emitted it. -/
structure Emission (ι : Type) where
  call : SendCall ι
  frame : List UInt8

variable {ι : Type}

/-- The frame that a call put on the air. -/
def emission (c : SendCall ι) (out : WfbTx.Sent) : Option (Emission ι) :=
  match out.result, out.iovecs with
  | .ok _, some iovecs => some ⟨c, iovecs.flatten⟩
  | _, _ => none

/-- Calls of `send` on the handles, one after the other, and the frames they emit. -/
def sends [DecidableEq ι] (tx : ι → WfbTx) : List (SendCall ι) → Checked (List (Emission ι))
  | [] => return []
  | c :: cs => do
      let out ← WfbTx.send (tx c.handle) c.payload c.seq c.rc
      let rest ← sends (Function.update tx c.handle out.tx) cs
      return (emission c out).toList ++ rest

/-- What an emitted frame is made of. -/
structure Emission.WellFormed (cfg : ι → WfbTxConfig) (e : Emission ι) : Prop where
  fits : e.call.payload.length ≤ computeMaxPayload
  parts : ∃ tx, WfbTx.HeaderInv (cfg e.call.handle) tx ∧
    e.frame = (WfbTx.iovecsOf (cfg e.call.handle) tx e.call.payload e.call.seq).flatten

/-- A call keeps the headers of its handle; it emits a well-formed frame if it is accepted, and
none otherwise. -/
lemma send_emission {cfg : ι → WfbTxConfig} {tx : WfbTx} (c : SendCall ι)
    (h : WfbTx.HeaderInv (cfg c.handle) tx) :
    ∃ out, WfbTx.send tx c.payload c.seq c.rc = .ok out ∧
      WfbTx.HeaderInv (cfg c.handle) out.tx ∧
      (c.Emits → ∃ e, emission c out = some e ∧ e.call = c ∧ e.WellFormed cfg) ∧
      (¬ c.Emits → emission c out = none) := by
  by_cases hfits : c.payload.length ≤ computeMaxPayload
  · obtain ⟨out, hsend, hinv, -, hiovecs, hresult⟩ := WfbTx.send_spec h hfits c.seq c.rc
    refine ⟨out, hsend, hinv, ?_, ?_⟩
    · rintro ⟨-, hok⟩
      have hrc : ∃ n, c.rc = .ok n := by
        cases hrc : c.rc with
        | ok n => exact ⟨n, rfl⟩
        | error e => simp [hrc, Except.isOk, Except.toBool] at hok
      refine ⟨⟨c, (WfbTx.iovecsOf (cfg c.handle) out.tx c.payload c.seq).flatten⟩, ?_, rfl,
        hfits, out.tx, hinv, rfl⟩
      rw [emission, hresult.mpr hrc, hiovecs]
    · intro hno
      have hfailed : ∃ e, out.result = .error e := by
        cases hout : out.result with
        | error e => exact ⟨e, rfl⟩
        | ok u =>
            obtain ⟨n, hrc⟩ := hresult.mp hout
            exact absurd ⟨hfits, by rw [hrc]; rfl⟩ hno
      obtain ⟨e, he⟩ := hfailed
      rw [emission, he]
  · obtain ⟨e, hsend⟩ := WfbTx.send_too_large tx c.seq c.rc hfits
    exact ⟨_, hsend, h, fun hemits => absurd hemits.1 hfits, fun _ => rfl⟩

/-- The accepted calls emit one well-formed frame each, in order; the others emit none. -/
lemma sends_spec [DecidableEq ι] {cfg : ι → WfbTxConfig} {tx : ι → WfbTx}
    (h : ∀ i, WfbTx.HeaderInv (cfg i) (tx i)) (calls : List (SendCall ι)) :
    ∃ emitted, sends tx calls = .ok emitted ∧
      emitted.map Emission.call = calls.filter (fun c => decide c.Emits) ∧
      ∀ e ∈ emitted, e.WellFormed cfg := by
  induction calls generalizing tx with
  | nil => exact ⟨[], rfl, rfl, by simp⟩
  | cons c cs ih =>
      obtain ⟨out, hsend, hinv, hyes, hno⟩ := send_emission c (h c.handle)
      have hupdate : ∀ i, WfbTx.HeaderInv (cfg i) (Function.update tx c.handle out.tx i) := by
        intro i
        by_cases hi : i = c.handle
        · subst hi
          simpa using hinv
        · simpa [Function.update_of_ne hi] using h i
      obtain ⟨rest, hrest, hcalls, hwf⟩ := ih hupdate
      refine ⟨(emission c out).toList ++ rest, ?_, ?_, ?_⟩
      · simp only [sends, hsend, hrest, ok_bind, pure_eq_ok]
      · by_cases hemits : c.Emits
        · obtain ⟨e, he, hcall, -⟩ := hyes hemits
          rw [List.filter_cons_of_pos (by simpa using hemits), he, Option.toList_some,
            List.singleton_append, List.map_cons, hcall, hcalls]
        · rw [List.filter_cons_of_neg (by simpa using hemits), hno hemits, Option.toList_none,
            List.nil_append, hcalls]
      · intro e he
        rcases List.mem_append.mp he with he | he
        · by_cases hemits : c.Emits
          · obtain ⟨e', he', -, hwf'⟩ := hyes hemits
            rw [he', Option.toList_some, List.mem_singleton] at he
            exact he ▸ hwf'
          · rw [hno hemits] at he
            simp at he
        · exact hwf e he

/-! ### On the air -/

/-- What reaches the capture of a frame: the radiotap header of the sender is replaced by `hdr`,
which parses to `m`, and the frame check sequence `fcs` is there when `m` announces one. -/
structure Captured (frame hdr fcs : List UInt8) (m : RadiotapMeta) (pkt : List UInt8) : Prop where
  bytes : pkt = hdr ++ frame.drop 13 ++ fcs
  parses : radiotapMetaFromPacket pkt = .ok (some m)
  radiotapLen : m.radiotapLen = hdr.length
  fcs_good : m.rtFlags &&& rtapFBadfcs = 0
  not_injected : m.selfInjected = false
  fcs_length : fcs.length = if m.rtFlags &&& rtapFFcs ≠ 0 then 4 else 0

/-- Behind the headers of the sender's frame: the 802.11 header, the plaintext header, the
payload. -/
lemma Emission.WellFormed.drop_frame {cfg : ι → WfbTxConfig} {e : Emission ι}
    (h : e.WellFormed cfg) : ∃ ieee : List UInt8, ieee.length = iee80211HeaderLen ∧
      ieee.take 22 = WfbTx.headerFront (cfg e.call.handle) ∧
      e.frame.drop 13 =
        ieee ++ (WfbTx.frameHeader e.call.payload e.call.seq).bytes ++ e.call.payload := by
  obtain ⟨tx, hinv, hframe⟩ := h.parts
  refine ⟨tx.ieeeHdr.toList, by simp [iee80211HeaderLen], hinv.front, ?_⟩
  have hlen : (WfbTx.radiotapOf (cfg e.call.handle)).toList.length = 13 := by simp
  rw [hframe, WfbTx.iovecsOf]
  simp only [List.flatten_cons, List.flatten_nil, List.append_nil]
  rw [List.drop_left' hlen, List.append_assoc]

section Captured

variable {cfg : ι → WfbTxConfig} {e : Emission ι} {hdr fcs pkt : List UInt8} {m : RadiotapMeta}

/-- The link layer of a captured frame. -/
lemma linkLayer_captured (h : Captured e.frame hdr fcs m pkt) :
    linkLayer pkt = e.frame.drop 13 ++ fcs := by
  obtain ⟨hdecl, -, -⟩ := radiotapLen_eq h.parses
  have hlen : Words.ofLE ((pkt.drop 2).take 2) = hdr.length := by
    rw [← h.radiotapLen, hdecl, declaredLen]
  rw [linkLayer, hlen, h.bytes, List.append_assoc, List.drop_left]

/-- **Isolation.** The filter of a stream passes the frames of the handles on that stream. -/
lemma holds_captured (hwf : e.WellFormed cfg) (h : Captured e.frame hdr fcs m pkt) (t : UInt32) :
    holds [⟨10, 2, 0x5742⟩, ⟨12, 4, t.toNat⟩] pkt = true ↔ (cfg e.call.handle).streamId = t := by
  obtain ⟨ieee, hieee, hfront, hdrop⟩ := hwf.drop_frame
  obtain ⟨-, -, h8⟩ := radiotapLen_eq h.parses
  obtain ⟨tail, htail⟩ : ∃ tail, linkLayer pkt = WfbTx.headerFront (cfg e.call.handle) ++ tail := by
    rw [linkLayer_captured h, hdrop, ← hfront]
    refine ⟨ieee.drop 22 ++ ((WfbTx.frameHeader e.call.payload e.call.seq).bytes ++
      (e.call.payload ++ fcs)), ?_⟩
    simp only [← List.append_assoc, List.take_append_drop]
  -- the filter reads bytes 10 to 15 only, which no `send` changes
  have hlen : 22 ≤ (linkLayer pkt).length := by
    rw [htail, List.length_append]
    simp [WfbTx.headerFront]
  have hmagic : Words.ofBE (((linkLayer pkt).drop 10).take 2) = 0x5742 := by
    rw [htail]
    rfl
  have hstream : ((linkLayer pkt).drop 12).take 4 =
      Words.toBE 4 (cfg e.call.handle).streamId.toNat := by
    rw [htail]
    rfl
  have hid : Words.ofBE (Words.toBE 4 (cfg e.call.handle).streamId.toNat) =
      (cfg e.call.handle).streamId.toNat := Words.ofBE_toBE (cfg e.call.handle).streamId.toNat_lt
  simp only [holds, List.all_cons, List.all_nil, Bool.and_true, Bool.and_eq_true, decide_eq_true_eq,
    Cmp.Holds, hmagic, hstream, hid, UInt32.toNat_inj]
  constructor
  · exact fun hh => hh.2.2.2
  · exact fun hh => ⟨⟨by omega, by omega, trivial⟩, by omega, by omega, hh⟩

/-- The parts of a captured packet. -/
lemma partsOf_captured (hwf : e.WellFormed cfg) (h : Captured e.frame hdr fcs m pkt) :
    ∃ ieee : List UInt8,
      PartsOf pkt hdr ieee (WfbTx.frameHeader e.call.payload e.call.seq) e.call.payload fcs m := by
  obtain ⟨ieee, hieee, -, hdrop⟩ := hwf.drop_frame
  have hfits := hwf.fits
  refine ⟨ieee, ?_⟩
  exact
    { bytes := by
        rw [h.bytes, hdrop]
        simp only [List.append_assoc]
      radiotapLen := h.radiotapLen
      ieee_length := hieee
      payloadLen := WfbTx.frameHeader_payloadLen hfits e.call.seq
      fcs_length := h.fcs_length }

/-- **Delivery.** A captured frame decodes to the payload and sequence number of its call. -/
lemma acceptedFrame_captured (hwf : e.WellFormed cfg) (h : Captured e.frame hdr fcs m pkt)
    (ignore : Bool) : acceptedFrame ignore computeMaxPayload pkt =
      some ⟨e.call.payload, m.toRxMeta e.call.seq 0⟩ := by
  obtain ⟨ieee, hparts⟩ := partsOf_captured hwf h
  have hchecks : PassesChecks ignore computeMaxPayload pkt m :=
    hparts.passesChecks rfl h.fcs_good hwf.fits (by simp [h.not_injected])
  exact WfbRx.acceptedFrame_eq_some.mpr ⟨m, h.parses, hchecks, hparts.frameOf_eq.symm⟩

end Captured

/-- The packets at a receiver: the captures of some emissions in order, and in between others
that its parser rejects. -/
inductive OnAir (rx : WfbRx) : List (Emission ι) → List (List UInt8) → Prop
  | nil : OnAir rx [] []
  | frame {es : List (Emission ι)} {pkts : List (List UInt8)} {e : Emission ι}
      {hdr fcs pkt : List UInt8} {m : RadiotapMeta} (h : Captured e.frame hdr fcs m pkt)
      (hs : OnAir rx es pkts) : OnAir rx (e :: es) (pkt :: pkts)
  | other {es : List (Emission ι)} {pkts : List (List UInt8)} {pkt : List UInt8}
      (h : WfbRx.parseAndEnqueueOnePacket rx pkt = .ok rx) (hs : OnAir rx es pkts) :
      OnAir rx es (pkt :: pkts)

/-! ### A receiver at work -/

/-- What happens at a receiver: a packet reaches its capture, or a frame is popped. -/
inductive Event
  | packet (bytes : List UInt8)
  | pop (buf : List UInt8)

def Event.packet? : Event → Option (List UInt8)
  | packet bytes => some bytes
  | pop _ => none

/-- The frames popped in a run, and the receiver behind it. -/
structure Processed where
  popped : List Frame
  rx : WfbRx

/-- One event.  The capture library drops what the filter of the capture does not pass; `recv`
pops only when a frame is queued. -/
def processOne (filter : String → List UInt8 → Bool) (rx : WfbRx) : Event → Checked Processed
  | .packet bytes => do
      if filter rx.pcap.filterExp bytes then
        let rx ← WfbRx.parseAndEnqueueOnePacket rx bytes
        return ⟨[], rx⟩
      return ⟨[], rx⟩
  | .pop buf =>
      match rx.queue with
      | [] => return ⟨[], rx⟩
      | f :: _ => do
          let out ← WfbRx.popOne rx buf none
          return ⟨[f], out.rx⟩

def process (filter : String → List UInt8 → Bool) (rx : WfbRx) : List Event → Checked Processed
  | [] => return ⟨[], rx⟩
  | event :: events => do
      let one ← processOne filter rx event
      let rest ← process filter one.rx events
      return ⟨one.popped ++ rest.popped, rest.rx⟩

/-- The ring has room before every event. -/
def NeverFull (filter : String → List UInt8 → Bool) (rx : WfbRx) (events : List Event) : Prop :=
  ∀ n < events.length, ∀ out, process filter rx (events.take n) = .ok out →
    out.rx.ringCount < out.rx.ringSize

/-- The entry that a packet makes at a receiver whose ring has room. -/
def entry (filter : String → List UInt8 → Bool) (rx : WfbRx) (pkt : List UInt8) : Option Frame :=
  if filter rx.pcap.filterExp pkt then
    acceptedFrame rx.ignoreSelfInjected rx.maxPayload pkt
  else none

section Process

variable {filter : String → List UInt8 → Bool} {rx : WfbRx}

lemma entry_congr {rx' : WfbRx} (h : WfbRx.SameConfig rx rx') : entry filter rx' = entry filter rx := by
  funext pkt
  rw [entry, entry, h.ignore, h.maxPayload, h.pcap]

/-- An event keeps the invariant; it takes frames from the front of the queue and puts the entry
of its packet behind it. -/
lemma processOne_spec (filter : String → List UInt8 → Bool) (hinv : WfbRx.RingInv rx) (hroom : rx.ringCount < rx.ringSize) (event : Event)
    (hparse : ∀ pkt ∈ event.packet?, ∃ o, radiotapMetaFromPacket pkt = .ok o) :
    ∃ out, processOne filter rx event = .ok out ∧ WfbRx.RingInv out.rx ∧
      WfbRx.SameConfig rx out.rx ∧
      out.popped ++ out.rx.queue = rx.queue ++ (event.packet?.bind (entry filter rx)).toList := by
  cases event with
  | packet pkt =>
      by_cases hpass : filter rx.pcap.filterExp pkt = true
      · obtain ⟨o, ho⟩ := hparse pkt rfl
        obtain ⟨hinv', hcfg, hqueue⟩ := WfbRx.received_spec hinv pkt
        refine ⟨⟨[], WfbRx.received rx pkt⟩, ?_, hinv', hcfg, ?_⟩
        · have hstep : WfbRx.parseAndEnqueueOnePacket rx pkt = .ok (WfbRx.received rx pkt) :=
            WfbRx.parseAndEnqueueOnePacket_eq hinv ho
          simp only [processOne, if_pos hpass, hstep, ok_bind, pure_eq_ok]
        · simp only [List.nil_append, Event.packet?, Option.bind_some, entry, if_pos hpass, hqueue]
          cases acceptedFrame rx.ignoreSelfInjected rx.maxPayload pkt with
          | none => simp
          | some f =>
              rw [Option.elim_some, RingBuffer.offer, WfbRx.length_queue, if_pos hroom]
              rfl
      · refine ⟨⟨[], rx⟩, ?_, hinv, WfbRx.SameConfig.refl rx, ?_⟩
        · simp only [processOne, if_neg hpass, pure_eq_ok]
        · simp [Event.packet?, entry, hpass]
  | pop buf =>
      by_cases hcount : rx.ringCount = 0
      · refine ⟨⟨[], rx⟩, ?_, hinv, WfbRx.SameConfig.refl rx, by simp [Event.packet?]⟩
        simp only [processOne, WfbRx.queue_eq_nil hcount, pure_eq_ok]
      · obtain ⟨f, hqueue, hinv', hpop⟩ := WfbRx.popOne_eq hinv (Nat.pos_of_ne_zero hcount) buf none
        refine ⟨⟨[f], WfbRx.popped rx⟩, ?_, hinv', WfbRx.sameConfig_popped rx, ?_⟩
        · simp only [processOne, hqueue, hpop, ok_bind, pure_eq_ok]
        · simp [Event.packet?, hqueue]

/-- The ring of a receiver behind an event has room in the rest of the run. -/
lemma NeverFull.tail {event : Event} {events : List Event}
    (h : NeverFull filter rx (event :: events)) {one : Processed}
    (hone : processOne filter rx event = .ok one) : NeverFull filter one.rx events := by
  intro n hn out hout
  refine h (n + 1) (Nat.succ_lt_succ hn) ⟨one.popped ++ out.popped, out.rx⟩ ?_
  rw [List.take_succ_cons, process, hone, ok_bind, hout]
  rfl

/-- A run of no more events than there are free slots never fills the ring. -/
lemma neverFull_of_length (hinv : WfbRx.RingInv rx) {events : List Event}
    (hlen : rx.ringCount + events.length ≤ rx.ringSize)
    (hparse : ∀ pkt ∈ events.filterMap Event.packet?, ∃ o, radiotapMetaFromPacket pkt = .ok o) :
    NeverFull filter rx events := by
  induction events generalizing rx with
  | nil => exact fun n hn => absurd hn (Nat.not_lt_zero n)
  | cons event events ih =>
      rw [List.length_cons] at hlen
      intro n hn out hout
      cases n with
      | zero =>
          obtain rfl := Except.ok.inj hout
          simp only
          omega
      | succ n =>
          obtain ⟨one, hone, hinv', hcfg, hqueue⟩ := processOne_spec filter hinv (by omega) event
            fun pkt hpkt => hparse pkt (List.mem_filterMap.mpr ⟨event, by simp, hpkt⟩)
          have hcount : one.rx.ringCount ≤ rx.ringCount + 1 := by
            have hlen := congrArg List.length hqueue
            have hone : (event.packet?.bind (entry filter rx)).toList.length ≤ 1 := by
              cases event.packet?.bind (entry filter rx) <;> simp
            simp only [List.length_append, WfbRx.length_queue] at hlen
            omega
          rw [List.take_succ_cons, process, hone, ok_bind] at hout
          obtain ⟨rest, hrest, hrest'⟩ := bind_eq_ok.mp hout
          obtain rfl := Except.ok.inj hrest'
          refine ih hinv' (by rw [hcfg.ringSize]; omega) (fun pkt hpkt => ?_) n
            (Nat.lt_of_succ_lt_succ hn) rest hrest
          obtain ⟨event', hmem, h⟩ := List.mem_filterMap.mp hpkt
          exact hparse pkt (List.mem_filterMap.mpr ⟨event', List.mem_cons_of_mem _ hmem, h⟩)

/-- Over a run, the frames popped and the frames left are the frames queued at first and the
entries of the packets. -/
lemma process_spec (hinv : WfbRx.RingInv rx) {events : List Event}
    (hroom : NeverFull filter rx events)
    (hparse : ∀ pkt ∈ events.filterMap Event.packet?, ∃ o, radiotapMetaFromPacket pkt = .ok o) :
    ∃ out, process filter rx events = .ok out ∧
      out.popped ++ out.rx.queue =
        rx.queue ++ (events.filterMap Event.packet?).filterMap (entry filter rx) := by
  induction events generalizing rx with
  | nil => exact ⟨⟨[], rx⟩, rfl, by simp⟩
  | cons event events ih =>
      have hfirst : rx.ringCount < rx.ringSize := hroom 0 (Nat.succ_pos _) ⟨[], rx⟩ rfl
      obtain ⟨one, hone, hinv', hcfg, hqueue⟩ := processOne_spec filter hinv hfirst event
        fun pkt hpkt => hparse pkt (List.mem_filterMap.mpr ⟨event, by simp, hpkt⟩)
      obtain ⟨rest, hrest, hqueue'⟩ := ih hinv' (hroom.tail hone) fun pkt hpkt => by
        obtain ⟨event', hmem, h⟩ := List.mem_filterMap.mp hpkt
        exact hparse pkt (List.mem_filterMap.mpr ⟨event', List.mem_cons_of_mem _ hmem, h⟩)
      refine ⟨⟨one.popped ++ rest.popped, rest.rx⟩, ?_, ?_⟩
      · simp only [process, hone, hrest, ok_bind, pure_eq_ok]
      · rw [List.append_assoc, hqueue', ← List.append_assoc, hqueue, entry_congr hcfg,
          List.append_assoc]
        -- what is left is the entry of this event in front of the others
        congr 1
        cases hpkt : event.packet? with
        | none => simp [hpkt]
        | some pkt =>
            cases hentry : entry filter rx pkt <;> simp [hpkt, hentry]

end Process

/-! ### Delivery and isolation -/

/-- What a receiver learns from a frame. -/
def Frame.content (f : Frame) : List UInt8 × UInt32 × UInt8 :=
  (f.payload, f.rxMeta.seq, f.rxMeta.flags)

/-- What a call sends. -/
def SendCall.content (c : SendCall ι) : List UInt8 × UInt32 × UInt8 := (c.payload, c.seq, 0)

section OnAir

variable {cfg : ι → WfbTxConfig} {rcfg : WfbRxConfig} {rx : WfbRx}
  {filter : String → List UInt8 → Bool}

/-- A captured frame makes an entry at the receivers of its stream only. -/
lemma entry_captured (hrx : (WfbRx.open rcfg).Returns (.ok rx)) (hfilter : Implements filter)
    {e : Emission ι} (hwf : e.WellFormed cfg) {hdr fcs pkt : List UInt8} {m : RadiotapMeta}
    (hcap : Captured e.frame hdr fcs m pkt) : entry filter rx pkt =
      if (cfg e.call.handle).streamId = rcfg.streamId then
        some ⟨e.call.payload, m.toRxMeta e.call.seq 0⟩
      else none := by
  obtain ⟨-, -, fd, heq⟩ := WfbRx.returns_open.mp hrx
  have hexp : rx.pcap.filterExp = filterExp rcfg.streamId := by rw [heq]; rfl
  have hpass : filter rx.pcap.filterExp pkt = true ↔
      (cfg e.call.handle).streamId = rcfg.streamId := by
    rw [hexp, hfilter _ _ (parse_filterExp rcfg.streamId)]
    exact holds_captured hwf hcap rcfg.streamId
  have hacc := acceptedFrame_captured hwf hcap rx.ignoreSelfInjected
  rw [← (WfbRx.opened_inv hrx).1.max_eq] at hacc
  simp only [entry, hpass, hacc]

/-- A packet that the parser rejects makes no entry. -/
lemma entry_rejected (hrx : (WfbRx.open rcfg).Returns (.ok rx)) {pkt : List UInt8}
    (hrej : WfbRx.parseAndEnqueueOnePacket rx pkt = .ok rx) : entry filter rx pkt = none := by
  obtain ⟨hinv, hqueue⟩ := WfbRx.opened_inv hrx
  rw [entry]
  split
  · cases hacc : acceptedFrame rx.ignoreSelfInjected rx.maxPayload pkt with
    | none => rfl
    | some f =>
        -- its frame would be in the queue of the opened receiver
        obtain ⟨-, -, hq⟩ := WfbRx.received_spec hinv pkt
        rw [← WfbRx.received_of_processed hinv hrej, hacc, Option.elim_some, hqueue,
          RingBuffer.offer, List.length_nil, if_pos hinv.size_pos] at hq
        simp at hq
  · rfl

/-- The entries of what is on the air are the emissions of the receiver's stream, in order. -/
lemma OnAir.entries (hrx : (WfbRx.open rcfg).Returns (.ok rx)) (hfilter : Implements filter)
    {emitted : List (Emission ι)} {pkts : List (List UInt8)} (h : OnAir rx emitted pkts)
    (hwf : ∀ e ∈ emitted, e.WellFormed cfg) :
    (pkts.filterMap (entry filter rx)).map Frame.content =
      (emitted.filter fun e => (cfg e.call.handle).streamId = rcfg.streamId).map
        fun e => e.call.content := by
  induction h with
  | nil => rfl
  | @frame es pkts e hdr fcs pkt m hcap _ ih =>
      have hentries := ih fun e' he' => hwf e' (List.mem_cons_of_mem _ he')
      have hentry := entry_captured hrx hfilter (hwf e (by simp)) hcap
      by_cases hstream : (cfg e.call.handle).streamId = rcfg.streamId
      · rw [if_pos hstream] at hentry
        rw [List.filterMap_cons_some hentry, List.filter_cons_of_pos (by simpa using hstream),
          List.map_cons, List.map_cons, hentries]
        rfl
      · rw [if_neg hstream] at hentry
        rw [List.filterMap_cons_none hentry, List.filter_cons_of_neg (by simpa using hstream),
          hentries]
  | other hrej _ ih => rw [List.filterMap_cons_none (entry_rejected hrx hrej), ih hwf]

/-- The radiotap header of everything on the air is read without a fault. -/
lemma OnAir.parses {emitted : List (Emission ι)} {pkts : List (List UInt8)}
    (h : OnAir rx emitted pkts) : ∀ pkt ∈ pkts, ∃ o, radiotapMetaFromPacket pkt = .ok o := by
  induction h with
  | nil => simp
  | frame hcap _ ih =>
      rintro pkt' (_ | ⟨_, hpkt'⟩)
      · exact ⟨_, hcap.parses⟩
      · exact ih pkt' hpkt'
  | other hrej _ ih =>
      rintro pkt' (_ | ⟨_, hpkt'⟩)
      · exact WfbRx.parse_of_processed hrej
      · exact ih pkt' hpkt'

end OnAir

/-- **End-to-end delivery and isolation.** Handles on any streams send in any interleaving; a
receiver on a stream, whose ring always has room, receives what the accepted calls on that stream
sent: each once, in the order of the calls, with the payload as it was, and nothing else. -/
theorem sends_delivered [DecidableEq ι] {cfg : ι → WfbTxConfig} {tx : ι → WfbTx}
    (htx : ∀ i, (WfbTx.open (cfg i)).Returns (.ok (tx i))) (calls : List (SendCall ι))
    {rcfg : WfbRxConfig} {rx : WfbRx} (hrx : (WfbRx.open rcfg).Returns (.ok rx))
    {filter : String → List UInt8 → Bool} (hfilter : Implements filter) :
    ∃ emitted, sends tx calls = .ok emitted ∧
      emitted.map Emission.call = calls.filter (fun c => decide c.Emits) ∧
      ∀ events, OnAir rx emitted (events.filterMap Event.packet?) → NeverFull filter rx events →
        ∃ out, process filter rx events = .ok out ∧
          (out.popped ++ out.rx.queue).map Frame.content =
            (calls.filter fun c => c.Emits ∧ (cfg c.handle).streamId = rcfg.streamId).map
              SendCall.content := by
  have hopened : ∀ i, WfbTx.HeaderInv (cfg i) (tx i) := by
    intro i
    obtain ⟨-, fd, heq⟩ := WfbTx.returns_open.mp (htx i)
    rw [heq]
    exact WfbTx.opened_inv (cfg i) fd
  obtain ⟨emitted, hsends, hcalls, hwf⟩ := sends_spec hopened calls
  obtain ⟨hinv, hqueue⟩ := WfbRx.opened_inv hrx
  refine ⟨emitted, hsends, hcalls, fun events hair hroom => ?_⟩
  obtain ⟨out, hout, hframes⟩ := process_spec hinv hroom hair.parses
  refine ⟨out, hout, ?_⟩
  rw [hframes, hqueue, List.nil_append, hair.entries hrx hfilter hwf]
  -- the emissions carry the accepted calls, so their streams may be read off the calls
  have hsplit : (calls.filter fun c => c.Emits ∧ (cfg c.handle).streamId = rcfg.streamId) =
      (calls.filter fun c => decide c.Emits).filter
        fun c => (cfg c.handle).streamId = rcfg.streamId := by
    rw [List.filter_filter]
    congr 1
    funext c
    simp [and_comm]
  rw [hsplit, ← hcalls, List.filter_map, List.map_map]
  rfl

/-! ### Two handles and a receiver -/

/-- Two handles, one on the stream of `wlan0` and one on stream 2. -/
def twoHandles (b : Bool) : WfbTxConfig :=
  if b then ⟨"wlan0", 1, wfbFrameTypeData, 0, 0⟩ else ⟨"wlan0", 2, wfbFrameTypeRts, 15, 40⟩

lemma accepts_twoHandles (b : Bool) : WfbTx.Accepts (twoHandles b) := by
  cases b
  · exact ⟨by decide, by decide, .inr rfl, by decide, by decide, .inr (.inr rfl)⟩
  · exact ⟨by decide, by decide, .inl rfl, by decide, by decide, .inl rfl⟩

def twoCalls : List (SendCall Bool) := [⟨false, [0x70], 8, .ok 0⟩, ⟨true, [0x68, 0x69], 7, .ok 0⟩]

/-- A bare radiotap header. -/
def bareHeader : List UInt8 := [0, 0, 8, 0, 0, 0, 0, 0]

/-- The two frames without the radiotap header of their sender. -/
def twoFrames : List (List UInt8) :=
  [[0xb4, 1, 0, 0, 255, 255, 255, 255, 255, 255, 0x57, 0x42, 0, 0, 0, 2, 0x57, 0x42, 0, 0, 0, 2,
      0, 0, 0, 0, 0, 0, 8, 0, 1, 0, 0x70],
    [8, 1, 0, 0, 255, 255, 255, 255, 255, 255, 0x57, 0x42, 0, 0, 0, 1, 0x57, 0x42, 0, 0, 0, 1,
      0, 0, 0, 0, 0, 0, 7, 0, 2, 0, 0x68, 0x69]]

/-- They reach the receiver, with a packet that is too short in between. -/
def twoEvents : List Event :=
  [.packet (bareHeader ++ twoFrames[0]), .packet [0], .packet (bareHeader ++ twoFrames[1])]

theorem onWlan0_delivered : ∃ out, process eval WfbRx.onWlan0 twoEvents = .ok out ∧
    (out.popped ++ out.rx.queue).map Frame.content = [([0x68, 0x69], 7, 0)] := by
  obtain ⟨emitted, hsends, -, hdelivered⟩ := sends_delivered
    (fun b => WfbTx.returns_open.mpr ⟨accepts_twoHandles b, 3, rfl⟩) twoCalls
    WfbRx.opened_onWlan0 implements_eval
  have hframes : ∃ e₁ e₂ : Emission Bool, emitted = [e₁, e₂] ∧
      e₁.frame.drop 13 = twoFrames[0] ∧ e₂.frame.drop 13 = twoFrames[1] := by
    cases hsends
    exact ⟨_, _, rfl, by decide +kernel, by decide +kernel⟩
  obtain ⟨e₁, e₂, rfl, h₁, h₂⟩ := hframes
  have hair : OnAir WfbRx.onWlan0 [e₁, e₂] (twoEvents.filterMap Event.packet?) := by
    exact .frame ⟨by rw [h₁, List.append_nil], rfl, rfl, by decide, by decide, rfl⟩
      (.other rfl (.frame ⟨by rw [h₂, List.append_nil], rfl, rfl, by decide, by decide, rfl⟩ .nil))
  have hinv := (WfbRx.opened_inv WfbRx.opened_onWlan0).1
  exact hdelivered twoEvents hair (neverFull_of_length hinv (by decide) hair.parses)

end WfbRs
