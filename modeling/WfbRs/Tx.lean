import WfbRs.Proto
import WfbRs.Lib.Descriptor

/-!
# The transmitter (`WfbTx` of `tx.rs`)

Opening a raw socket, the three headers of a frame, and `send`.  The arrays of the source have
their size in the type, so that its constant indices are in range by construction.
-/

namespace WfbRs

open Rust Descriptor

/-! ### Templates -/

def radiotapHtTemplate : Vector UInt8 13 :=
  #v[0x00, 0x00, 0x0d, 0x00, 0x00, 0x80, 0x08, 0x00, 0x08, 0x00, 0x37, 0x00, 0x00]

def mcsFlagsOff : ℕ := 11

def mcsIdxOff : ℕ := 12

def mcsBw20 : UInt8 := 0

def mcsBw40 : UInt8 := 1

def ieee80211HeaderTemplate : Vector UInt8 24 :=
  #v[0x08, 0x01, 0x00, 0x00,
    0xff, 0xff, 0xff, 0xff, 0xff, 0xff,
    0x57, 0x42, 0xaa, 0xbb, 0xcc, 0xdd,
    0x57, 0x42, 0xaa, 0xbb, 0xcc, 0xdd,
    0x00, 0x00]

def srcMacThirdByte : ℕ := 12

def dstMacThirdByte : ℕ := 18

def frameSeqLb : ℕ := 22

def frameSeqHb : ℕ := 23

/-- `IFNAMSIZ` of the C library. -/
def ifnamsiz : ℕ := 16

structure WfbTx where
  fd : ℕ
  streamId : UInt32
  frameType : UInt8
  ieee80211Seq : UInt16
  ieeeHdr : Vector UInt8 24
  radiotapHt : Vector UInt8 13

/-- `a[off..off + k].copy_from_slice(src)`, with the range inside the array. -/
def copyInto {n k : ℕ} (a : Vector UInt8 n) (off : ℕ) (src : Vector UInt8 k) : Vector UInt8 n :=
  Vector.ofFn fun i : Fin n =>
    if h : off ≤ i.val ∧ i.val - off < k then src[i.val - off] else a[i]

/-- `to_be_bytes`. -/
def toBeBytes (n : UInt32) : Vector UInt8 4 := ⟨(Words.toBE 4 n.toNat).toArray, by simp⟩

namespace WfbTx

/-! ### Opening and closing -/

/-- `open_pfpacket_tx_socket`.  The calls are `socket`, `setsockopt`, `ioctl` and `bind`; the
outcome of `setsockopt` is ignored.  In the message, `quote` stands for `{:?}`, with which it
agrees on printable names. -/
def openPfpacketTxSocket (iface : String) : SysProg (Except WfbError ℕ) := do
  match ← (.acquire .done : SysProg (Except SysError ℕ)) with
  | .error e => return .error (.io e.errno)
  | .ok fd =>
      let _ ← (.call .done : SysProg (Except SysError ℤ))
      let len := iface.utf8ByteSize
      if len = 0 ∨ len ≥ ifnamsiz then
        (.release fd (.done ()) : SysProg Unit)
        return .error (.invalidArgument
          s!"iface must fit in IFNAMSIZ ({ifnamsiz}): {iface.quote}")
      match ← (.call .done : SysProg (Except SysError ℤ)) with
      | .error e =>
          (.release fd (.done ()) : SysProg Unit)
          return .error (.io e.errno)
      | .ok _ =>
          match ← (.call .done : SysProg (Except SysError ℤ)) with
          | .error e =>
              (.release fd (.done ()) : SysProg Unit)
              return .error (.io e.errno)
          | .ok _ => return .ok fd

def buildRadiotapHt (tx : WfbTx) (mcsIndex bandwidth : UInt8) : Except WfbError WfbTx := do
  if mcsIndex > 0x0f then
    throw (.invalidArgument s!"mcs_index must be <= 0x0f, got {mcsIndex}")
  let bw ← match bandwidth with
    | 20 => pure mcsBw20
    | 40 => pure mcsBw40
    | _ => throw (.invalidArgument s!"bandwidth must be 20 or 40, got {bandwidth}")
  let radiotapHt := radiotapHtTemplate.set mcsFlagsOff bw (by decide)
  return { tx with radiotapHt := radiotapHt.set mcsIdxOff mcsIndex (by decide) }

/-- `Drop for WfbTx`. -/
def drop (tx : WfbTx) : SysProg Unit :=
  if tx.fd ≥ 0 then .release tx.fd (.done ()) else .done ()

/-- The transmitter around an open socket, before its radiotap header is built. -/
def around (cfg : WfbTxConfig) (fd : ℕ) : WfbTx :=
  let ieeeHdr := ieee80211HeaderTemplate.set 0 cfg.frameType
  let ieeeHdr := copyInto ieeeHdr srcMacThirdByte (toBeBytes cfg.streamId)
  { fd := fd
    streamId := cfg.streamId
    frameType := cfg.frameType
    ieee80211Seq := 0
    ieeeHdr := copyInto ieeeHdr dstMacThirdByte (toBeBytes cfg.streamId)
    radiotapHt := radiotapHtTemplate }

/-- `WfbTx::open`.  When the radiotap header is refused, the transmitter is dropped. -/
def «open» (cfg : WfbTxConfig) : SysProg (Except WfbError WfbTx) := do
  if cfg.iface = "" then return .error (.invalidArgument "iface is empty")
  if cfg.streamId = 0 then return .error (.invalidArgument "stream_id=0 is disallowed")
  if cfg.frameType ≠ wfbFrameTypeData ∧ cfg.frameType ≠ wfbFrameTypeRts then
    return .error (.invalidArgument "frame_type must be DATA or RTS")
  let mcsIndex := if cfg.mcsIndex = 0 then 1 else cfg.mcsIndex
  let bandwidth := if cfg.bandwidth = 0 then 20 else cfg.bandwidth
  match ← openPfpacketTxSocket cfg.iface with
  | .error e => return .error e
  | .ok fd =>
      let tx := around cfg fd
      match buildRadiotapHt tx mcsIndex bandwidth with
      | .error e =>
          tx.drop
          return .error e
      | .ok tx => return .ok tx

/-- `WfbTx::close`; it consumes the transmitter, which is dropped at its end. -/
def close (tx : WfbTx) : SysProg Unit := do
  (.release tx.fd (.done ()) : SysProg Unit)
  tx.drop

/-! ### Sending -/

/-- What a `send` leaves: the transmitter, the four buffers handed to `sendmsg` if it got there,
and the result. -/
structure Sent where
  tx : WfbTx
  iovecs : Option (List (List UInt8))
  result : Except WfbError Unit

/-- `send`, given the answer of `sendmsg`. -/
def send (tx : WfbTx) (payload : List UInt8) (seq : UInt32) (rc : Except SysError ℤ) : Checked Sent := do
  if payload.length > computeMaxPayload then
    return ⟨tx, none, .error (.invalidArgument
      s!"payload too large: {payload.length} > {computeMaxPayload}")⟩
  let hdr : WfbFrameHeader := ⟨wfbProtoVersion, seq, UInt16.ofNat payload.length, 0⟩
  let hdrBytes ← hdr.encode
  let seq16 := tx.ieee80211Seq
  let ieeeHdr := tx.ieeeHdr.set frameSeqLb (seq16 &&& 0xff).toUInt8 (by decide)
  let ieeeHdr := ieeeHdr.set frameSeqHb ((seq16 >>> 8) &&& 0xff).toUInt8 (by decide)
  let tx := { tx with ieeeHdr := ieeeHdr, ieee80211Seq := tx.ieee80211Seq + 16 }
  let iovecs := [tx.radiotapHt.toList, tx.ieeeHdr.toList, hdrBytes, payload]
  match rc with
  | .error e => return ⟨tx, some iovecs, .error (.io e.errno)⟩
  | .ok _ => return ⟨tx, some iovecs, .ok ()⟩

/-! ### Opened transmitters -/

/-- The configurations that `open` accepts when the system grants the socket. -/
structure Accepts (cfg : WfbTxConfig) : Prop where
  iface : cfg.iface ≠ ""
  stream : cfg.streamId ≠ 0
  frameType : cfg.frameType = wfbFrameTypeData ∨ cfg.frameType = wfbFrameTypeRts
  name : cfg.iface.utf8ByteSize < ifnamsiz
  mcsIndex : cfg.mcsIndex ≤ 0x0f
  bandwidth : cfg.bandwidth = 0 ∨ cfg.bandwidth = 20 ∨ cfg.bandwidth = 40

/-- The radiotap header of an accepted configuration. -/
def radiotapOf (cfg : WfbTxConfig) : Vector UInt8 13 :=
  (radiotapHtTemplate.set mcsFlagsOff (if cfg.bandwidth = 40 then mcsBw40 else mcsBw20)
    (by decide)).set mcsIdxOff (if cfg.mcsIndex = 0 then 1 else cfg.mcsIndex) (by decide)

/-- The transmitter that `open` returns around a socket. -/
def opened (cfg : WfbTxConfig) (fd : ℕ) : WfbTx := { around cfg fd with radiotapHt := radiotapOf cfg }

lemma returns_openPfpacketTxSocket {iface : String} {fd : ℕ} :
    (openPfpacketTxSocket iface).Returns (.ok fd) ↔
      iface.utf8ByteSize ≠ 0 ∧ iface.utf8ByteSize < ifnamsiz := by
  simp only [openPfpacketTxSocket, Prog.acquire_bind, Prog.done_bind, Prog.returns_acquire]
  by_cases hlen : iface.utf8ByteSize = 0 ∨ iface.utf8ByteSize ≥ ifnamsiz
  · refine iff_of_false ?_ (by omega)
    rintro ⟨r, h⟩
    rcases r with e | fd'
    · simp [Prog.returns_done] at h
    · simp only [if_pos hlen, Prog.call_bind, Prog.done_bind, Prog.release_bind,
        Prog.returns_call, Prog.returns_release, Prog.pure_eq_done, Prog.returns_done] at h
      simp at h
  · refine iff_of_true ⟨.ok fd, ?_⟩ (by omega)
    simp only [Prog.call_bind, Prog.done_bind, if_neg hlen, Prog.returns_call]
    exact ⟨.ok 0, .ok 0, .call (.ok 0) (.done _)⟩

lemma buildRadiotapHt_eq_ok {tx tx' : WfbTx} {mcsIndex bandwidth : UInt8} :
    buildRadiotapHt tx mcsIndex bandwidth = .ok tx' ↔ mcsIndex ≤ 0x0f ∧
      (bandwidth = 20 ∨ bandwidth = 40) ∧ tx' = { tx with
        radiotapHt := (radiotapHtTemplate.set mcsFlagsOff
          (if bandwidth = 40 then mcsBw40 else mcsBw20) (by decide)).set mcsIdxOff mcsIndex
            (by decide) } := by
  unfold buildRadiotapHt
  by_cases hmcs : mcsIndex > 0x0f
  · rw [if_pos hmcs]
    exact iff_of_false (fun h => by cases h) fun h => absurd h.1 (UInt8.not_le.mpr hmcs)
  rw [if_neg hmcs]
  have hle : mcsIndex ≤ 0x0f := UInt8.not_lt.mp hmcs
  split
  · simp [hle, eq_comm, pure, Except.pure, bind, Except.bind]
  · simp [hle, eq_comm, pure, Except.pure, bind, Except.bind]
  · rename_i h20 h40
    refine iff_of_false (fun h => by cases h) ?_
    rintro ⟨-, h | h, -⟩
    · exact h20 h
    · exact h40 h

/-- The first 22 bytes of the 802.11 header: all but the sequence number. -/
def headerFront (cfg : WfbTxConfig) : List UInt8 :=
  [cfg.frameType, 0x01, 0x00, 0x00, 0xff, 0xff, 0xff, 0xff, 0xff, 0xff, 0x57, 0x42] ++
    Words.toBE 4 cfg.streamId.toNat ++ [0x57, 0x42] ++ Words.toBE 4 cfg.streamId.toNat

lemma toList_copyInto {n k : ℕ} (a : Vector UInt8 n) (src : Vector UInt8 k) {off : ℕ}
    (h : off + k ≤ n) :
    (copyInto a off src).toList = a.toList.take off ++ src.toList ++ a.toList.drop (off + k) := by
  apply List.ext_getElem
  · simp only [Vector.length_toList, List.length_append, List.length_take, List.length_drop]
    omega
  · intro i h₁ h₂
    rw [Vector.length_toList] at h₁
    simp only [copyInto, Vector.getElem_toList, Vector.getElem_ofFn, List.getElem_append,
      List.length_append, List.length_take, Vector.length_toList, List.getElem_take,
      List.getElem_drop, min_eq_left (show off ≤ n by omega)]
    by_cases hlo : off ≤ i
    · by_cases hhi : i - off < k
      · rw [dif_pos ⟨hlo, hhi⟩, dif_pos (by omega), dif_neg (by omega)]
      · have hidx : off + k + (i - (off + k)) = i := by omega
        rw [dif_neg (fun hh => hhi hh.2), dif_neg (by omega)]
        simp only [hidx, Fin.getElem_fin]
    · rw [dif_neg (fun hh => hlo hh.1), dif_pos (by omega), dif_pos (by omega)]
      rfl

lemma toList_toBeBytes (n : UInt32) : (toBeBytes n).toList = Words.toBE 4 n.toNat := rfl

lemma take_around (cfg : WfbTxConfig) (fd : ℕ) :
    (around cfg fd).ieeeHdr.toList.take 22 = headerFront cfg := by
  obtain ⟨a, b, c, d, hbytes⟩ : ∃ a b c d, Words.toBE 4 cfg.streamId.toNat = [a, b, c, d] :=
    ⟨_, _, _, _, rfl⟩
  simp only [around, toList_copyInto _ _ (show dstMacThirdByte + 4 ≤ 24 by decide),
    toList_copyInto _ _ (show srcMacThirdByte + 4 ≤ 24 by decide), toList_toBeBytes, hbytes,
    headerFront]
  rfl

lemma forty_of_default (bandwidth : UInt8) :
    (if (if bandwidth = 0 then (20 : UInt8) else bandwidth) = 40 then mcsBw40 else mcsBw20) =
      if bandwidth = 40 then mcsBw40 else mcsBw20 := by
  by_cases h0 : bandwidth = 0
  · subst h0
    rfl
  · rw [if_neg h0]

/-- The radiotap header is built for the indices and bandwidths that `Accepts` allows. -/
lemma buildRadiotapHt_around {cfg : WfbTxConfig} (fd : ℕ) {tx : WfbTx} :
    buildRadiotapHt (around cfg fd) (if cfg.mcsIndex = 0 then 1 else cfg.mcsIndex)
        (if cfg.bandwidth = 0 then 20 else cfg.bandwidth) = .ok tx ↔
      cfg.mcsIndex ≤ 0x0f ∧ (cfg.bandwidth = 0 ∨ cfg.bandwidth = 20 ∨ cfg.bandwidth = 40) ∧
        tx = opened cfg fd := by
  rw [buildRadiotapHt_eq_ok, forty_of_default]
  have hmcs : (if cfg.mcsIndex = 0 then 1 else cfg.mcsIndex) ≤ 0x0f ↔ cfg.mcsIndex ≤ 0x0f := by
    by_cases h0 : cfg.mcsIndex = 0
    · simp [h0]
    · rw [if_neg h0]
  have hbw : ((if cfg.bandwidth = 0 then 20 else cfg.bandwidth) = 20 ∨
      (if cfg.bandwidth = 0 then 20 else cfg.bandwidth) = 40) ↔
        cfg.bandwidth = 0 ∨ cfg.bandwidth = 20 ∨ cfg.bandwidth = 40 := by
    by_cases h0 : cfg.bandwidth = 0
    · simp [h0]
    · simp [h0]
  rw [hmcs, hbw]
  rfl

/-- What a successful `open` returns. -/
lemma returns_open {cfg : WfbTxConfig} {tx : WfbTx} :
    (WfbTx.open cfg).Returns (.ok tx) ↔ Accepts cfg ∧ ∃ fd, tx = opened cfg fd := by
  unfold WfbTx.open
  by_cases hiface : cfg.iface = ""
  · simp only [if_pos hiface, Prog.pure_eq_done, Prog.returns_done]
    exact iff_of_false (by simp) fun h => h.1.iface hiface
  by_cases hstream : cfg.streamId = 0
  · simp only [if_neg hiface, if_pos hstream, Prog.pure_eq_done, Prog.returns_done]
    exact iff_of_false (by simp) fun h => h.1.stream hstream
  by_cases htype : cfg.frameType ≠ wfbFrameTypeData ∧ cfg.frameType ≠ wfbFrameTypeRts
  · simp only [if_neg hiface, if_neg hstream, if_pos htype, Prog.pure_eq_done, Prog.returns_done]
    exact iff_of_false (by simp) fun h => h.1.frameType.elim htype.1 htype.2
  simp only [if_neg hiface, if_neg hstream, if_neg htype, Prog.returns_bind]
  constructor
  · rintro ⟨r, hsocket, h⟩
    rcases r with e | fd
    · simp [Prog.returns_done] at h
    obtain ⟨-, hname⟩ := returns_openPfpacketTxSocket.mp hsocket
    cases hbuild : buildRadiotapHt (around cfg fd) (if cfg.mcsIndex = 0 then 1 else cfg.mcsIndex)
        (if cfg.bandwidth = 0 then 20 else cfg.bandwidth) with
    | error e =>
        simp only [hbuild, Prog.returns_bind, Prog.pure_eq_done, Prog.returns_done] at h
        simp at h
    | ok tx' =>
        simp only [hbuild, Prog.pure_eq_done, Prog.returns_done, Except.ok.injEq] at h
        obtain ⟨hmcs, hbw, hopened⟩ := (buildRadiotapHt_around fd).mp hbuild
        exact ⟨⟨hiface, hstream, by tauto, hname, hmcs, hbw⟩, fd, h.trans hopened⟩
  · rintro ⟨hacc, fd, rfl⟩
    have hbuild := (buildRadiotapHt_around fd).mpr ⟨hacc.mcsIndex, hacc.bandwidth, rfl⟩
    have hlen : cfg.iface.utf8ByteSize ≠ 0 := by simpa using hiface
    refine ⟨.ok fd, returns_openPfpacketTxSocket.mpr ⟨hlen, hacc.name⟩, ?_⟩
    simp only [hbuild, Prog.pure_eq_done, Prog.returns_done]

/-! ### The frames of a handle -/

/-- What every transmitter opened with a configuration keeps: all of the 802.11 header but the
sequence number, and the radiotap header. -/
structure HeaderInv (cfg : WfbTxConfig) (tx : WfbTx) : Prop where
  front : tx.ieeeHdr.toList.take 22 = headerFront cfg
  radiotap : tx.radiotapHt = radiotapOf cfg

lemma opened_inv (cfg : WfbTxConfig) (fd : ℕ) : HeaderInv cfg (opened cfg fd) :=
  ⟨take_around cfg fd, rfl⟩

/-- The plaintext header of a frame. -/
def frameHeader (payload : List UInt8) (seq : UInt32) : WfbFrameHeader :=
  ⟨wfbProtoVersion, seq, UInt16.ofNat payload.length, 0⟩

/-- The length of a payload that fits survives the cast to 16 bits. -/
lemma frameHeader_payloadLen {payload : List UInt8} (h : payload.length ≤ computeMaxPayload)
    (seq : UInt32) : (frameHeader payload seq).payloadLen.toNat = payload.length := by
  rw [computeMaxPayload_eq] at h
  rw [frameHeader, UInt16.toNat_ofNat']
  exact Nat.mod_eq_of_lt (by omega)

/-- The four parts of a frame: the radiotap header, the 802.11 header, the plaintext header and
the payload. -/
def iovecsOf (cfg : WfbTxConfig) (tx : WfbTx) (payload : List UInt8) (seq : UInt32) :
    List (List UInt8) :=
  [(radiotapOf cfg).toList, tx.ieeeHdr.toList, (frameHeader payload seq).bytes, payload]

/-- A payload that does not fit is refused. -/
lemma send_too_large (tx : WfbTx) {payload : List UInt8} (seq : UInt32) (rc : Except SysError ℤ)
    (h : ¬ payload.length ≤ computeMaxPayload) :
    ∃ e, send tx payload seq rc = .ok ⟨tx, none, .error e⟩ :=
  ⟨_, by rw [send, if_pos (Nat.lt_of_not_le h)]; rfl⟩

/-- A `send` of a payload that fits hands over the four parts of a frame and keeps the headers. -/
lemma send_spec {cfg : WfbTxConfig} {tx : WfbTx} (h : HeaderInv cfg tx) {payload : List UInt8}
    (hlen : payload.length ≤ computeMaxPayload) (seq : UInt32) (rc : Except SysError ℤ) :
    ∃ out, send tx payload seq rc = .ok out ∧ HeaderInv cfg out.tx ∧ out.tx.fd = tx.fd ∧
      out.iovecs = some (iovecsOf cfg out.tx payload seq) ∧
      (out.result = .ok () ↔ ∃ n, rc = .ok n) := by
  have hfits : ¬ payload.length > computeMaxPayload := Nat.not_lt_of_le hlen
  have henc := WfbFrameHeader.encode_eq (frameHeader payload seq)
  rw [frameHeader] at henc
  obtain ⟨tx', htx'⟩ : ∃ tx', tx' = { tx with
      ieeeHdr := (tx.ieeeHdr.set frameSeqLb (tx.ieee80211Seq &&& 0xff).toUInt8 (by decide)).set
        frameSeqHb ((tx.ieee80211Seq >>> 8) &&& 0xff).toUInt8 (by decide)
      ieee80211Seq := tx.ieee80211Seq + 16 } := ⟨_, rfl⟩
  -- only the two bytes of the sequence number are written
  have hinv : HeaderInv cfg tx' := by
    refine ⟨?_, by rw [htx']; exact h.radiotap⟩
    rw [htx', ← h.front]
    simp only [Vector.toList_set]
    rw [List.take_set_of_le (by decide), List.take_set_of_le (by decide)]
  have hfd : tx'.fd = tx.fd := by rw [htx']
  have hradiotap : tx.radiotapHt = radiotapOf cfg := h.radiotap
  cases rc with
  | error e =>
      refine ⟨⟨tx', some (iovecsOf cfg tx' payload seq), .error (.io e.errno)⟩, ?_, hinv, hfd, rfl, by simp⟩
      simp only [send, if_neg hfits, henc, ok_bind, pure_eq_ok, htx', hradiotap, iovecsOf,
        frameHeader]
  | ok n =>
      refine ⟨⟨tx', some (iovecsOf cfg tx' payload seq), .ok ()⟩, ?_, hinv, hfd, rfl, by simp⟩
      simp only [send, if_neg hfits, henc, ok_bind, pure_eq_ok, htx', hradiotap, iovecsOf,
        frameHeader]

end WfbTx

end WfbRs
