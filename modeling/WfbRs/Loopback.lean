import WfbRs.Radiotap.Encoding
import WfbRs.Rx.Runs
import WfbRs.TxRuns

/-!
# A transmitter heard by a receiver

The bytes that a transmitter hands to `sendmsg`, given to a receiver as they are.  The radiotap
header of the transmitter is one that the receiver's parser reads back; its TX_FLAGS field marks
the packet as injected, so that the receiver can tell it from the frames of others.
-/

namespace WfbRs

open Rust Descriptor

namespace WfbTx

/-- The modulation index and the bandwidth of a configuration, with their defaults. -/
def mcsIndexOf (cfg : WfbTxConfig) : UInt8 := if cfg.mcsIndex = 0 then 1 else cfg.mcsIndex

def bandwidthOf (cfg : WfbTxConfig) : UInt8 := if cfg.bandwidth = 0 then 20 else cfg.bandwidth

/-- What the receiver reads from the radiotap header of a transmitter. -/
def ownMeta (cfg : WfbTxConfig) : RadiotapMeta where
  rtFlags := 0
  selfInjected := true
  freq := 0
  antenna := Vector.replicate 4 0xff
  rssi := Vector.replicate 4 Int8.minValue
  noise := Vector.replicate 4 Int8.maxValue
  antCount := 0
  mcsIndex := mcsIndexOf cfg
  bandwidth := bandwidthOf cfg
  radiotapLen := 13

/-- The two fields of the transmitter's radiotap header. -/
def ownArgs (cfg : WfbTxConfig) : List Arg :=
  [⟨rtapTxFlags, [0x08, 0x00]⟩,
    ⟨rtapMcs, [0x37, if cfg.bandwidth = 40 then mcsBw40 else mcsBw20, mcsIndexOf cfg]⟩]

/-- The header with its two patched bytes is an encoding of these fields. -/
lemma radiotapOf_append (cfg : WfbTxConfig) (rest : List UInt8) :
    (radiotapOf cfg).toList ++ rest =
      radiotapPacket (fun _ => 0) 13 [0x00088000] (ownArgs cfg) rest := rfl

/-- An index that is accepted fits the seven bits that the receiver keeps. -/
lemma mcsIndexOf_and {cfg : WfbTxConfig} (h : Accepts cfg) :
    mcsIndexOf cfg &&& 0x7f = mcsIndexOf cfg := by
  have hle : (mcsIndexOf cfg).toNat ≤ 15 := by
    rw [mcsIndexOf]
    split
    · decide
    · exact UInt8.le_iff_toNat_le.mp h.mcsIndex
  apply UInt8.toNat_inj.mp
  rw [UInt8.toNat_and]
  exact (Nat.and_two_pow_sub_one_eq_mod _ 7).trans (Nat.mod_eq_of_lt (by omega))

/-- The bandwidth flag stands for the bandwidth. -/
lemma bandwidthOf_eq {cfg : WfbTxConfig} (h : Accepts cfg) :
    (if (if cfg.bandwidth = 40 then mcsBw40 else mcsBw20) &&& 0x01 ≠ 0 then 40 else 20) =
      bandwidthOf cfg := by
  rcases h.bandwidth with hbw | hbw | hbw
  · rw [bandwidthOf, hbw]
    rfl
  · rw [bandwidthOf, hbw]
    rfl
  · rw [bandwidthOf, hbw]
    rfl

lemma readArgs_ownArgs {cfg : WfbTxConfig} (h : Accepts cfg) :
    (readArgs { curOff := 8 } (ownArgs cfg)).toMeta 13 = ownMeta cfg := by
  have hmcs : (0x37 : UInt8) &&& rtapMcsHaveMcs ≠ 0 := by decide
  have hbw : (0x37 : UInt8) &&& rtapMcsHaveBw ≠ 0 := by decide
  simp only [readArgs, ownArgs, List.foldl_cons, List.foldl_nil, applyField, List.getD_cons_zero,
    List.getD_cons_succ, hmcs, hbw, if_true, true_and, ne_eq, not_false_eq_true, mcsIndexOf_and h,
    FieldState.toMeta, ownMeta]
  rw [← bandwidthOf_eq h]
  rfl

/-- **The transmitter's radiotap header** is read back by the receiver's parser. -/
lemma parse_radiotapOf {cfg : WfbTxConfig} (h : Accepts cfg) (rest : List UInt8) :
    radiotapMetaFromPacket ((radiotapOf cfg).toList ++ rest) = .ok (some (ownMeta cfg)) := by
  have hsized : ∀ a ∈ ownArgs cfg ++ [], a.WellSized := by
    intro a ha
    rw [List.append_nil] at ha
    rcases List.mem_cons.mp ha with rfl | ha
    · exact ⟨rfl, rfl⟩
    · obtain rfl := List.mem_singleton.mp ha
      exact ⟨rfl, rfl⟩
  have hknown : knownFields [(0x00088000 : UInt32) &&& 0x7fffffff] = [rtapTxFlags, rtapMcs] := by
    decide +kernel
  have hparse : radiotapMetaFromPacket
      (radiotapPacket (fun _ => 0) 13 [0x00088000] (ownArgs cfg ++ []) rest) =
        .ok (some ((readArgs { curOff := 4 + 4 * 1 } (ownArgs cfg)).toMeta 13)) := by
    refine parse_radiotapPacket (by simp) (presentChain_presentBytes [] (by simp) (by decide)) rfl
      hknown hsized ?_ ?_
    · exact le_of_eq rfl
    · rw [length_radiotapPacket _ _ _ _ hsized]
      exact Nat.le_add_right 13 _
  rw [radiotapOf_append, ← List.append_nil (ownArgs cfg), hparse]
  exact congrArg (fun m => Except.ok (some m)) (readArgs_ownArgs h)

/-! ### The frame at a receiver -/

/-- The metadata of a transmitter's own frame. -/
def ownRxMeta (cfg : WfbTxConfig) (seq : UInt32) : WfbRxMeta where
  seq := seq
  flags := 0
  freq := 0
  mcsIndex := mcsIndexOf cfg
  bandwidth := bandwidthOf cfg
  antenna := Vector.replicate 4 0xff
  rssi := Vector.replicate 4 Int8.minValue
  noise := Vector.replicate 4 Int8.maxValue
  antennaCount := 0
  truncated := false

section Frame

variable {cfg : WfbTxConfig} {payload : List UInt8}

/-- The four buffers are the parts of one packet. -/
lemma partsOf_iovecs (cfg : WfbTxConfig) (tx : WfbTx) (hlen : payload.length ≤ computeMaxPayload)
    (seq : UInt32) :
    PartsOf (iovecsOf cfg tx payload seq).flatten (radiotapOf cfg).toList tx.ieeeHdr.toList
      (frameHeader payload seq) payload [] (ownMeta cfg) where
  bytes := by
    rw [iovecsOf]
    simp only [List.flatten_cons, List.flatten_nil]
  radiotapLen := (Vector.length_toList).symm
  ieee_length := Vector.length_toList
  payloadLen := frameHeader_payloadLen hlen seq
  fcs_length := by simp [ownMeta]

lemma parse_iovecs (hacc : Accepts cfg) (tx : WfbTx) (payload : List UInt8) (seq : UInt32) :
    radiotapMetaFromPacket (iovecsOf cfg tx payload seq).flatten = .ok (some (ownMeta cfg)) := by
  rw [iovecsOf, List.flatten_cons]
  exact parse_radiotapOf hacc _

/-- A receiver that does not ignore its own injections takes the frame, with the metadata that the
transmitter has put into it. -/
lemma acceptedFrame_iovecs (hacc : Accepts cfg) (tx : WfbTx)
    (hlen : payload.length ≤ computeMaxPayload) (seq : UInt32) :
    acceptedFrame false computeMaxPayload (iovecsOf cfg tx payload seq).flatten =
      some ⟨payload, ownRxMeta cfg seq⟩ := by
  have hparts := partsOf_iovecs cfg tx hlen seq
  refine WfbRx.acceptedFrame_eq_some.mpr ⟨ownMeta cfg, parse_iovecs hacc tx payload seq, ?_, ?_⟩
  · exact hparts.passesChecks rfl (by simp [ownMeta]) hlen (by simp)
  · rw [hparts.frameOf_eq]
    rfl

/-- A receiver that ignores its own injections does not. -/
lemma acceptedFrame_iovecs_ignored (hacc : Accepts cfg) (tx : WfbTx) (payload : List UInt8)
    (seq : UInt32) (maxPayload : ℕ) :
    acceptedFrame true maxPayload (iovecsOf cfg tx payload seq).flatten = none := by
  have hno : ¬ PassesChecks true maxPayload (iovecsOf cfg tx payload seq).flatten (ownMeta cfg) :=
    fun h => h.not_ignored ⟨rfl, rfl⟩
  simp only [acceptedFrame, parse_iovecs hacc tx payload seq, if_neg hno]

end Frame

/-- What a receiver does with the bytes of a transmitter's frame. -/
structure LoopsBack (cfg : WfbTxConfig) (payload : List UInt8) (seq : UInt32) (frame : List UInt8)
    (rx : WfbRx) : Prop where
  /-- With its own injections ignored, nothing at all. -/
  ignored : rx.ignoreSelfInjected = true → WfbRx.parseAndEnqueueOnePacket rx frame = .ok rx
  /-- Otherwise, with room in the ring, one entry. -/
  enqueued : rx.ignoreSelfInjected = false → rx.ringCount < rx.ringSize →
    ∃ rx', WfbRx.parseAndEnqueueOnePacket rx frame = .ok rx' ∧
      rx'.queue = rx.queue ++ [⟨payload, ownRxMeta cfg seq⟩]

lemma loopsBack_iovecs {cfg : WfbTxConfig} (hacc : Accepts cfg) (tx : WfbTx) {payload : List UInt8}
    (hlen : payload.length ≤ computeMaxPayload) (seq : UInt32) {rx : WfbRx}
    (hinv : WfbRx.RingInv rx) :
    LoopsBack cfg payload seq (iovecsOf cfg tx payload seq).flatten rx where
  ignored := by
    intro hignore
    rw [WfbRx.parseAndEnqueueOnePacket_eq hinv (parse_iovecs hacc tx payload seq), hignore,
      acceptedFrame_iovecs_ignored hacc]
  enqueued := by
    intro hignore hroom
    refine ⟨WfbRx.pushed rx payload (ownRxMeta cfg seq), ?_, ?_⟩
    · rw [WfbRx.parseAndEnqueueOnePacket_eq hinv (parse_iovecs hacc tx payload seq), hignore,
        hinv.max_eq, acceptedFrame_iovecs hacc tx hlen seq]
      exact congrArg Except.ok (if_pos hroom)
    · exact WfbRx.queue_pushed hinv (hinv.max_eq ▸ hlen) hroom

/-- **Loopback.** Behind any history of calls on an opened transmitter, the bytes that a call with
a payload that fits hands to `sendmsg` are taken by every reachable receiver as that payload with
the transmitter's own metadata, or left alone when it ignores its own injections. -/
theorem send_loopsBack {cfg : WfbTxConfig} {tx : WfbTx} (h : (WfbTx.open cfg).Returns (.ok tx))
    (history : List Call) {payload : List UInt8} (hlen : payload.length ≤ computeMaxPayload)
    (seq : UInt32) (rc : Except SysError ℤ) :
    (UInt16.ofNat payload.length).toNat = payload.length ∧
    ∃ r, Machine.run sendStep tx history = .ok r ∧
      ∃ out radiotap ieee hdr, send r.final payload seq rc = .ok out ∧
        out.iovecs = some [radiotap, ieee, hdr, payload] ∧
        ∀ rx, WfbRx.Reachable rx →
          LoopsBack cfg payload seq [radiotap, ieee, hdr, payload].flatten rx := by
  obtain ⟨hacc, fd, rfl⟩ := returns_open.mp h
  refine ⟨frameHeader_payloadLen hlen seq, ?_⟩
  obtain ⟨r, hrun, -, -, hinv, -⟩ := run_sendStep (opened_numbered cfg fd) history
  obtain ⟨out, hsend, -, -, hiovecs, -⟩ := send_spec hinv hlen seq rc
  exact ⟨r, hrun, out, _, _, _, hsend, hiovecs,
    fun rx hrx => loopsBack_iovecs hacc out.tx hlen seq hrx.inv⟩

theorem stream1_loopsBack : ∃ r, Machine.run sendStep (opened stream1 3) threeCalls = .ok r ∧
    ∃ out radiotap ieee hdr, send r.final [0x68, 0x69] 7 (.ok 0) = .ok out ∧
      out.iovecs = some [radiotap, ieee, hdr, [0x68, 0x69]] ∧
      ∃ rx', WfbRx.parseAndEnqueueOnePacket WfbRx.onWlan0
          [radiotap, ieee, hdr, [0x68, 0x69]].flatten = .ok rx' ∧
        rx'.queue = [⟨[0x68, 0x69], ownRxMeta stream1 7⟩] := by
  obtain ⟨-, r, hrun, out, radiotap, ieee, hdr, hsend, hiovecs, hloop⟩ :=
    send_loopsBack open_stream1 threeCalls (show [0x68, 0x69].length ≤ computeMaxPayload by decide)
      7 (.ok 0)
  refine ⟨r, hrun, out, radiotap, ieee, hdr, hsend, hiovecs, ?_⟩
  exact (hloop WfbRx.onWlan0 (.opened WfbRx.opened_onWlan0)).enqueued rfl (by decide)

end WfbTx

end WfbRs
