import WfbRs.Radiotap.Decode
import WfbRs.Rx.Ring

/-!
# Received packets (`parse_and_enqueue_one_packet` of `rx.rs`)

The parser of a captured packet, and the grammar it accepts.  `PassesChecks` states the
grammar in one place; `parseAndEnqueueOnePacket_eq` says that the nine early exits of the
code amount to it.
-/

namespace WfbRs

open Rust RingBuffer

namespace WfbRx

/-- `effective_len`: the packet length, less the frame check sequence when the FLAGS field
announces one. -/
def trimFcs (rtFlags : UInt8) (len : ℕ) : Checked ℕ := do
  if rtFlags &&& rtapFFcs ≠ 0 then
    if len ≥ 4 then return ← usub len 4
  return len

/-- `parse_and_enqueue_one_packet`; every path of the source returns `Ok(())`, so only the
receiver is returned. -/
def parseAndEnqueueOnePacket (rx : WfbRx) (pkt : List UInt8) : Checked WfbRx := do
  match ← radiotapMetaFromPacket pkt with
  | none => return rx
  | some radiotap =>
      if radiotap.selfInjected && rx.ignoreSelfInjected then return rx
      let effectiveLen ← trimFcs radiotap.rtFlags pkt.length
      if radiotap.rtFlags &&& rtapFBadfcs ≠ 0 then return rx
      if effectiveLen ≤ (← uadd radiotap.radiotapLen iee80211HeaderLen) then return rx
      let afterRtLen ← usub effectiveLen radiotap.radiotapLen
      let afterIeeeLen ← usub afterRtLen iee80211HeaderLen
      if afterIeeeLen < 8 then return rx
      let ieeeStart := radiotap.radiotapLen
      let shStart ← uadd ieeeStart iee80211HeaderLen
      let plaintextHdrLen := 8
      if (← uadd shStart plaintextHdrLen) > effectiveLen then return rx
      match ← WfbFrameHeader.decode (← slice pkt shStart (← uadd shStart plaintextHdrLen)) with
      | .error _ => return rx
      | .ok (sh, _) =>
          if sh.version ≠ wfbProtoVersion then return rx
          let payloadLen := sh.payloadLen.toNat
          let payloadStart ← uadd shStart plaintextHdrLen
          if payloadStart > effectiveLen then return rx
          let payloadAvail ← usub effectiveLen payloadStart
          if payloadLen > payloadAvail then return rx
          if payloadLen > rx.maxPayload then return rx
          let payload ← slice pkt payloadStart (← uadd payloadStart payloadLen)
          enqueueDecoded rx payload
            { seq := sh.seq
              flags := sh.flags
              freq := radiotap.freq
              mcsIndex := radiotap.mcsIndex
              bandwidth := radiotap.bandwidth
              antenna := radiotap.antenna
              rssi := radiotap.rssi
              noise := radiotap.noise
              antennaCount := radiotap.antCount
              truncated := false }

end WfbRx

/-! ### The grammar of accepted packets -/

/-- The length of a packet without its frame check sequence. -/
def effectiveLen (pkt : List UInt8) (m : RadiotapMeta) : ℕ :=
  if m.rtFlags &&& rtapFFcs ≠ 0 then pkt.length - 4 else pkt.length

/-- The eight bytes behind the 802.11 header. -/
def wfbHeaderBytes (pkt : List UInt8) (radiotapLen : ℕ) : List UInt8 :=
  (pkt.drop (radiotapLen + iee80211HeaderLen)).take wfbPlaintextHdrLen

/-- The payload length declared there, in network byte order. -/
def declaredPayloadLen (pkt : List UInt8) (radiotapLen : ℕ) : ℕ :=
  Words.ofBE (((wfbHeaderBytes pkt radiotapLen).drop 5).take 2)

/-- The checks on a packet whose radiotap header parses to `m`, for a receiver that ignores its
own injections or not and takes payloads up to `maxPayload`. -/
structure PassesChecks (ignoreSelfInjected : Bool) (maxPayload : ℕ) (pkt : List UInt8)
    (m : RadiotapMeta) : Prop where
  not_ignored : ¬ (m.selfInjected = true ∧ ignoreSelfInjected = true)
  fcs_good : m.rtFlags &&& rtapFBadfcs = 0
  long : m.radiotapLen + iee80211HeaderLen + wfbPlaintextHdrLen ≤ effectiveLen pkt m
  version : (wfbHeaderBytes pkt m.radiotapLen).head? = some wfbProtoVersion
  avail : declaredPayloadLen pkt m.radiotapLen ≤ effectiveLen pkt m - (m.radiotapLen + 32)
  fits : declaredPayloadLen pkt m.radiotapLen ≤ maxPayload

/-- The three headers fit the packet. -/
lemma PassesChecks.long_le {ignoreSelfInjected : Bool} {maxPayload : ℕ} {pkt : List UInt8}
    {m : RadiotapMeta} (h : PassesChecks ignoreSelfInjected maxPayload pkt m) :
    m.radiotapLen + 32 ≤ effectiveLen pkt m := h.long

instance (ignoreSelfInjected : Bool) (maxPayload : ℕ) (pkt : List UInt8) (m : RadiotapMeta) :
    Decidable (PassesChecks ignoreSelfInjected maxPayload pkt m) :=
  decidable_of_iff
    (¬ (m.selfInjected = true ∧ ignoreSelfInjected = true) ∧ m.rtFlags &&& rtapFBadfcs = 0 ∧
      m.radiotapLen + iee80211HeaderLen + wfbPlaintextHdrLen ≤ effectiveLen pkt m ∧
      (wfbHeaderBytes pkt m.radiotapLen).head? = some wfbProtoVersion ∧
      declaredPayloadLen pkt m.radiotapLen ≤ effectiveLen pkt m - (m.radiotapLen + 32) ∧
      declaredPayloadLen pkt m.radiotapLen ≤ maxPayload)
    ⟨fun ⟨h₁, h₂, h₃, h₄, h₅, h₆⟩ => ⟨h₁, h₂, h₃, h₄, h₅, h₆⟩,
      fun h => ⟨h.1, h.2, h.3, h.4, h.5, h.6⟩⟩

/-- The metadata of a frame: sequence number and flags from its own header, the rest from
radiotap. -/
def RadiotapMeta.toRxMeta (m : RadiotapMeta) (seq : UInt32) (flags : UInt8) : WfbRxMeta where
  seq := seq
  flags := flags
  freq := m.freq
  mcsIndex := m.mcsIndex
  bandwidth := m.bandwidth
  antenna := m.antenna
  rssi := m.rssi
  noise := m.noise
  antennaCount := m.antCount
  truncated := false

/-- The frame of an accepted packet. -/
def frameOf (pkt : List UInt8) (m : RadiotapMeta) : Frame where
  payload := (pkt.drop (m.radiotapLen + 32)).take (declaredPayloadLen pkt m.radiotapLen)
  rxMeta := m.toRxMeta
    (UInt32.ofNat (Words.ofBE (((wfbHeaderBytes pkt m.radiotapLen).drop 1).take 4)))
    ((wfbHeaderBytes pkt m.radiotapLen).getD 7 0)

/-- The frame of a packet that passes every check other than ring space. -/
def acceptedFrame (ignoreSelfInjected : Bool) (maxPayload : ℕ) (pkt : List UInt8) : Option Frame :=
  match radiotapMetaFromPacket pkt with
  | .ok (some m) =>
      if PassesChecks ignoreSelfInjected maxPayload pkt m then some (frameOf pkt m) else none
  | _ => none

/-- A packet in its parts: radiotap header, 802.11 header, plaintext header, payload, and the
frame check sequence that `m` announces. -/
structure PartsOf (pkt hdr ieee : List UInt8) (sh : WfbFrameHeader) (payload fcs : List UInt8)
    (m : RadiotapMeta) : Prop where
  bytes : pkt = hdr ++ (ieee ++ (sh.bytes ++ (payload ++ fcs)))
  radiotapLen : m.radiotapLen = hdr.length
  ieee_length : ieee.length = iee80211HeaderLen
  payloadLen : sh.payloadLen.toNat = payload.length
  fcs_length : fcs.length = if m.rtFlags &&& rtapFFcs ≠ 0 then 4 else 0

namespace PartsOf

variable {pkt hdr ieee payload fcs : List UInt8} {sh : WfbFrameHeader} {m : RadiotapMeta}

/-- The frame check sequence is cut off. -/
lemma effectiveLen_eq (h : PartsOf pkt hdr ieee sh payload fcs m) :
    effectiveLen pkt m = m.radiotapLen + 32 + payload.length := by
  have hlen : pkt.length = m.radiotapLen + 32 + payload.length + fcs.length := by
    rw [h.bytes, h.radiotapLen]
    simp only [List.length_append, h.ieee_length, WfbFrameHeader.length_bytes, iee80211HeaderLen]
    omega
  rw [effectiveLen, hlen, h.fcs_length]
  split
  · rfl
  · rfl

lemma wfbHeaderBytes_eq (h : PartsOf pkt hdr ieee sh payload fcs m) :
    wfbHeaderBytes pkt m.radiotapLen = sh.bytes := by
  have h24 : (hdr ++ ieee).length = m.radiotapLen + iee80211HeaderLen := by
    rw [List.length_append, h.ieee_length, h.radiotapLen]
  rw [wfbHeaderBytes, h.bytes, ← List.append_assoc, ← h24, List.drop_left]
  exact List.take_left' (WfbFrameHeader.length_bytes sh)

lemma declaredPayloadLen_eq (h : PartsOf pkt hdr ieee sh payload fcs m) :
    declaredPayloadLen pkt m.radiotapLen = payload.length := by
  rw [declaredPayloadLen, h.wfbHeaderBytes_eq, WfbFrameHeader.bytes_payloadLen, h.payloadLen]

lemma payload_eq (h : PartsOf pkt hdr ieee sh payload fcs m) :
    (pkt.drop (m.radiotapLen + 32)).take payload.length = payload := by
  have h32 : (hdr ++ (ieee ++ sh.bytes)).length = m.radiotapLen + 32 := by
    simp only [List.length_append, h.ieee_length, WfbFrameHeader.length_bytes, h.radiotapLen,
      iee80211HeaderLen]
  have hassoc : pkt = hdr ++ (ieee ++ sh.bytes) ++ (payload ++ fcs) := by
    rw [h.bytes]
    simp only [List.append_assoc]
  rw [hassoc, ← h32, List.drop_left, List.take_left]

/-- Such a packet passes the checks when its version is right, its frame check sequence is good,
its payload fits and it is not to be ignored. -/
lemma passesChecks (h : PartsOf pkt hdr ieee sh payload fcs m) {ignore : Bool} {maxPayload : ℕ}
    (hversion : sh.version = wfbProtoVersion) (hfcs : m.rtFlags &&& rtapFBadfcs = 0)
    (hfits : payload.length ≤ maxPayload) (hignore : ¬ (m.selfInjected = true ∧ ignore = true)) :
    PassesChecks ignore maxPayload pkt m where
  not_ignored := hignore
  fcs_good := hfcs
  long := by
    rw [h.effectiveLen_eq, iee80211HeaderLen, wfbPlaintextHdrLen]
    omega
  version := by rw [h.wfbHeaderBytes_eq, WfbFrameHeader.bytes_head, hversion]
  avail := by
    rw [h.declaredPayloadLen_eq, h.effectiveLen_eq]
    omega
  fits := by rwa [h.declaredPayloadLen_eq]

/-- Its frame is its payload, with the metadata of its headers. -/
lemma frameOf_eq (h : PartsOf pkt hdr ieee sh payload fcs m) :
    frameOf pkt m = ⟨payload, m.toRxMeta sh.seq sh.flags⟩ := by
  rw [frameOf, h.declaredPayloadLen_eq, h.payload_eq, h.wfbHeaderBytes_eq,
    WfbFrameHeader.bytes_seq, WfbFrameHeader.bytes_flags, UInt32.ofNat_toNat]

end PartsOf

namespace WfbRx

lemma trimFcs_eq {pkt : List UInt8} (m : RadiotapMeta) (h : 4 ≤ pkt.length) :
    trimFcs m.rtFlags pkt.length = .ok (effectiveLen pkt m) := by
  unfold trimFcs effectiveLen
  by_cases hf : m.rtFlags &&& rtapFFcs = 0
  · simp [hf]
  · simp [hf, h, usub_ok h]

lemma effectiveLen_le (pkt : List UInt8) (m : RadiotapMeta) : effectiveLen pkt m ≤ pkt.length := by
  rw [effectiveLen]
  split
  · exact Nat.sub_le _ _
  · exact le_rfl

/-- The eight bytes behind the 802.11 header are those of one frame header. -/
lemma header_of_length {pkt : List UInt8} {m : RadiotapMeta}
    (hlen : m.radiotapLen + iee80211HeaderLen + 8 ≤ pkt.length) :
    ∃ sh : WfbFrameHeader, WfbFrameHeader.decode (wfbHeaderBytes pkt m.radiotapLen) = .ok (.ok (sh, 8)) ∧
      sh.bytes = wfbHeaderBytes pkt m.radiotapLen ∧
      (wfbHeaderBytes pkt m.radiotapLen).head? = some sh.version ∧
      declaredPayloadLen pkt m.radiotapLen = sh.payloadLen.toNat ∧
      frameOf pkt m = ⟨(pkt.drop (m.radiotapLen + 32)).take sh.payloadLen.toNat,
        m.toRxMeta sh.seq sh.flags⟩ := by
  have hbytes : (wfbHeaderBytes pkt m.radiotapLen).length = 8 := by
    simp only [wfbHeaderBytes, List.length_take, List.length_drop, wfbPlaintextHdrLen]
    omega
  obtain ⟨sh, hdec, hsh⟩ := WfbFrameHeader.decode_eq hbytes
  have hpay : declaredPayloadLen pkt m.radiotapLen = sh.payloadLen.toNat := by
    rw [declaredPayloadLen, ← hsh, WfbFrameHeader.bytes_payloadLen]
  refine ⟨sh, hdec, hsh, by rw [← hsh]; rfl, hpay, ?_⟩
  rw [frameOf, hpay, ← hsh, WfbFrameHeader.bytes_seq, WfbFrameHeader.bytes_flags,
    UInt32.ofNat_toNat]

/-- **The parser is its grammar.** On a ring that keeps its invariant, a packet whose radiotap
header is read without a fault is enqueued or dropped as `acceptedFrame` says. -/
lemma parseAndEnqueueOnePacket_eq {rx : WfbRx} (hinv : RingInv rx) {pkt : List UInt8}
    {o : Option RadiotapMeta} (ho : radiotapMetaFromPacket pkt = .ok o) :
    parseAndEnqueueOnePacket rx pkt = .ok
      (match acceptedFrame rx.ignoreSelfInjected rx.maxPayload pkt with
      | some f => if rx.ringCount < rx.ringSize then pushed rx f.payload f.rxMeta else rx
      | none => rx) := by
  unfold parseAndEnqueueOnePacket acceptedFrame
  rw [ho]
  cases o with
  | none => rfl
  | some m =>
      obtain ⟨hdecl, hrt, h8⟩ := radiotapLen_eq ho
      have hsmall : m.radiotapLen < 2 ^ 16 := hdecl ▸ declaredLen_lt pkt
      have hEle := effectiveLen_le pkt m
      -- every early exit leaves the receiver alone, and breaks one of the checks
      have hexit : ¬ PassesChecks rx.ignoreSelfInjected rx.maxPayload pkt m →
          (Except.ok rx : Checked WfbRx) = .ok
            (match (if PassesChecks rx.ignoreSelfInjected rx.maxPayload pkt m then
                some (frameOf pkt m) else none) with
            | some f => if rx.ringCount < rx.ringSize then pushed rx f.payload f.rxMeta else rx
            | none => rx) := fun hno => by rw [if_neg hno]
      have hieee : iee80211HeaderLen = 24 := rfl
      have h24 : m.radiotapLen + iee80211HeaderLen < usizeBound := lt_usizeBound (by omega)
      have h32 : m.radiotapLen + iee80211HeaderLen + 8 < usizeBound := lt_usizeBound (by omega)
      simp only [ok_bind, trimFcs_eq m (show 4 ≤ pkt.length by omega), uadd_ok h24, uadd_ok h32,
        pure_eq_ok]
      split
      · rename_i hself
        exact hexit fun h => h.not_ignored (by simpa using hself)
      rename_i hself
      split
      · rename_i hbad
        exact hexit fun h => hbad h.fcs_good
      rename_i hbad
      split
      · rename_i hshort
        exact hexit fun h => absurd h.long_le (by omega)
      rename_i hlong
      -- from here on both headers fit, and the subtractions of the source cannot underflow
      have hsub : iee80211HeaderLen ≤ effectiveLen pkt m - m.radiotapLen := by omega
      simp only [usub_ok (show m.radiotapLen ≤ effectiveLen pkt m by omega), ok_bind,
        usub_ok hsub]
      split
      · rename_i hshort
        exact hexit fun h => absurd h.long_le (by omega)
      rename_i hlong8
      have hend : m.radiotapLen + iee80211HeaderLen + 8 ≤ effectiveLen pkt m := by omega
      rw [if_neg (Nat.not_lt_of_le hend), slice_ok (by omega) (by omega), ok_bind,
        Nat.add_sub_cancel_left]
      obtain ⟨sh, hdec, -, hhead, hlen, hframe⟩ := header_of_length (hend.trans hEle)
      change WfbFrameHeader.decode ((pkt.drop (m.radiotapLen + iee80211HeaderLen)).take 8) = _ at hdec
      simp only [hdec, ok_bind]
      split
      · rename_i hver
        exact hexit fun h => hver (Option.some.inj (hhead.symm.trans h.version))
      rename_i hver
      rw [if_neg (Nat.not_lt_of_le hend), usub_ok hend, ok_bind]
      split
      · rename_i havail
        refine hexit fun h => ?_
        have hle := h.avail
        rw [hlen] at hle
        omega
      rename_i havail
      split
      · rename_i hmax
        refine hexit fun h => ?_
        have hle := h.fits
        rw [hlen] at hle
        omega
      rename_i hmax
      -- all checks have passed
      have hstart : m.radiotapLen + iee80211HeaderLen + 8 = m.radiotapLen + 32 := rfl
      have hpay : m.radiotapLen + 32 + sh.payloadLen.toNat ≤ pkt.length := by omega
      have hadd : m.radiotapLen + 32 + sh.payloadLen.toNat < usizeBound := by
        have hlt := sh.payloadLen.toNat_lt
        exact lt_usizeBound (by omega)
      have hyes : PassesChecks rx.ignoreSelfInjected rx.maxPayload pkt m :=
        { not_ignored := by simpa using hself
          fcs_good := not_ne_iff.mp hbad
          long := hend
          version := by rw [hhead, not_ne_iff.mp hver]
          avail := by rw [hlen]; omega
          fits := by rw [hlen]; omega }
      have hpaylen : ((pkt.drop (m.radiotapLen + 32)).take sh.payloadLen.toNat).length =
          sh.payloadLen.toNat := by
        rw [List.length_take, List.length_drop]
        omega
      rw [if_pos hyes, hframe, hstart, uadd_ok hadd, ok_bind,
        slice_ok (Nat.le_add_right _ _) hpay, ok_bind, Nat.add_sub_cancel_left]
      exact enqueueDecoded_eq hinv (by omega)

/-- The payload of an accepted frame fits a slot. -/
lemma acceptedFrame_length {ignore : Bool} {maxPayload : ℕ} {pkt : List UInt8} {f : Frame}
    (h : acceptedFrame ignore maxPayload pkt = some f) : f.payload.length ≤ maxPayload := by
  rw [acceptedFrame] at h
  split at h
  · rename_i m _
    split at h
    · rename_i hchecks
      obtain rfl := Option.some.inj h
      exact le_trans (by simp [frameOf]) hchecks.fits
    · exact absurd h (by simp)
  · exact absurd h (by simp)

/-- The receiver after a packet. -/
def received (rx : WfbRx) (pkt : List UInt8) : WfbRx :=
  match acceptedFrame rx.ignoreSelfInjected rx.maxPayload pkt with
  | some f => if rx.ringCount < rx.ringSize then pushed rx f.payload f.rxMeta else rx
  | none => rx

/-- What does not change while packets are received and frames are popped. -/
structure SameConfig (rx rx' : WfbRx) : Prop where
  ignore : rx'.ignoreSelfInjected = rx.ignoreSelfInjected
  maxPayload : rx'.maxPayload = rx.maxPayload
  ringSize : rx'.ringSize = rx.ringSize
  fd : rx'.fd = rx.fd
  pcap : rx'.pcap = rx.pcap

lemma SameConfig.refl (rx : WfbRx) : SameConfig rx rx := ⟨rfl, rfl, rfl, rfl, rfl⟩

lemma SameConfig.trans {rx₁ rx₂ rx₃ : WfbRx} (h : SameConfig rx₁ rx₂) (h' : SameConfig rx₂ rx₃) :
    SameConfig rx₁ rx₃ :=
  ⟨h'.ignore.trans h.ignore, h'.maxPayload.trans h.maxPayload, h'.ringSize.trans h.ringSize,
    h'.fd.trans h.fd, h'.pcap.trans h.pcap⟩

lemma sameConfig_pushed (rx : WfbRx) (payload : List UInt8) (rxMeta : WfbRxMeta) :
    SameConfig rx (pushed rx payload rxMeta) := ⟨rfl, rfl, rfl, rfl, rfl⟩

lemma sameConfig_popped (rx : WfbRx) : SameConfig rx (popped rx) := ⟨rfl, rfl, rfl, rfl, rfl⟩

/-- A packet keeps the invariant and offers its frame, if it has one, to the queue. -/
lemma received_spec {rx : WfbRx} (hinv : RingInv rx) (pkt : List UInt8) :
    RingInv (received rx pkt) ∧ SameConfig rx (received rx pkt) ∧
      (received rx pkt).queue = (acceptedFrame rx.ignoreSelfInjected rx.maxPayload pkt).elim
        rx.queue (offer rx.ringSize rx.queue) := by
  rw [received]
  cases hf : acceptedFrame rx.ignoreSelfInjected rx.maxPayload pkt with
  | none => exact ⟨hinv, SameConfig.refl rx, rfl⟩
  | some f =>
      have hlen := acceptedFrame_length hf
      refine ⟨?_, ?_, queue_enqueue hinv hlen⟩
      · simp only
        split
        · rename_i hroom
          exact pushed_inv hinv hlen hroom
        · exact hinv
      · simp only
        split
        · exact sameConfig_pushed rx f.payload f.rxMeta
        · exact SameConfig.refl rx

end WfbRx

end WfbRs
