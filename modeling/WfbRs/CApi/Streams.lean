import WfbRs.CApi.Process
import WfbRs.Delivery

/-!
# What the C interface is for

Without its objects, a transmit handle is a numbered stream of frames and a receive handle is a
queue.  `Serves` says what a call may answer in these terms, and every run of a process is served
so.
-/

namespace WfbRs

open Rust Descriptor

/-! ### Configurations -/

def CTxConfig.config (cfg : CTxConfig) (name : String) : WfbTxConfig :=
  ⟨name, cfg.streamId, cfg.frameType, cfg.mcsIndex, cfg.bandwidth⟩

def CRxConfig.config (cfg : CRxConfig) (name : String) : WfbRxConfig :=
  ⟨name, cfg.streamId, decide (cfg.ignoreSelfInjected ≠ 0), cfg.ringSize.toNat⟩

/-- The configuration that the library accepts for this one. -/
def CTxConfig.Opens (cfg : CTxConfig) (rust : WfbTxConfig) : Prop :=
  ∃ name, cIface cfg.iface = .ok name ∧ rust = cfg.config name ∧ WfbTx.Accepts rust

def CRxConfig.Opens (cfg : CRxConfig) (rust : WfbRxConfig) : Prop :=
  ∃ name, cIface cfg.iface = .ok name ∧ rust = cfg.config name ∧ rust.streamId ≠ 0

/-- The frames of a batch that a drain adds to an empty queue. -/
def WfbRxConfig.kept (cfg : WfbRxConfig) (batch : List CapturedPacket) : List Frame :=
  (batch.filterMap fun p => acceptedFrame cfg.ignoreSelfInjected computeMaxPayload p.bytes).take
    (WfbRx.ringSizeOf cfg)

namespace CApi

/-- What a handle is for. -/
inductive Handle
  /-- A stream of frames, of which so many were sent. -/
  | tx (cfg : WfbTxConfig) (sent : ℕ)
  /-- A queue of frames. -/
  | rx (cfg : WfbRxConfig) (queue : List Frame)

abbrev Handles : Type := ℕ → Option Handle

/-- A pointer of the call that it cannot do without is null. -/
def Call.HasNull : Call → Prop
  | .txOpen cfg outHandle => outHandle = false ∨ ∀ c ∈ cfg, c.iface = none
  | .txClose handle => handle = none
  | .txSend handle payload payloadLen _ => handle = none ∨ 0 < payloadLen ∧ payload = none
  | .rxOpen cfg outHandle => outHandle = false ∨ ∀ c ∈ cfg, c.iface = none
  | .rxClose handle => handle = none
  | .rxRecv handle outBuf _ outLen _ => handle = none ∨ outBuf = none ∨ outLen = false

/-- What a call may answer, and the handles behind it. -/
inductive Serves (hs : Handles) : Call → Answer → Handles → Prop
  | null {call : Call} (null : call.HasNull) : Serves hs call { code := wfbRsErrNullPtr } hs
  | txRefused {cfg : CTxConfig} {code : ℤ} (iface : cfg.iface ≠ none)
      (code_eq : code = wfbRsErrIo ∨ code = wfbRsErrInvalidArgument ∧ ∀ rust, ¬ cfg.Opens rust) :
      Serves hs (.txOpen (some cfg) true) { code := code } hs
  | txOpened {cfg : CTxConfig} {rust : WfbTxConfig} {box : ℕ} (opens : cfg.Opens rust)
      (free : hs box = none) :
      Serves hs (.txOpen (some cfg) true) { code := wfbRsOk, opened := some box }
        (Function.update hs box (some (.tx rust 0)))
  | txClosed {p : ℕ} {cfg : WfbTxConfig} {sent : ℕ} (live : hs p = some (.tx cfg sent)) :
      Serves hs (.txClose (some p)) { code := wfbRsOk } (Function.update hs p none)
  | tooLarge {p : ℕ} {cfg : WfbTxConfig} {sent : ℕ} {payload : Option (List UInt8)}
      {payloadLen : ℕ} {seq : UInt32} (live : hs p = some (.tx cfg sent))
      (large : computeMaxPayload < payloadLen) (given : payload ≠ none) :
      Serves hs (.txSend (some p) payload payloadLen seq) { code := wfbRsErrInvalidArgument } hs
  | sent {p : ℕ} {cfg : WfbTxConfig} {sent : ℕ} {payload : Option (List UInt8)} {payloadLen : ℕ}
      {seq : UInt32} {rc : Except SysError ℤ} (live : hs p = some (.tx cfg sent))
      (fits : payloadLen ≤ computeMaxPayload) (given : 0 < payloadLen → payload ≠ none) :
      Serves hs (.txSend (some p) payload payloadLen seq)
        { code := if rc.isOk then wfbRsOk else wfbRsErrIo
          sent := some (WfbTx.numberedFrame cfg sent
            ⟨(payload.getD []).take payloadLen, seq, rc⟩, rc) }
        (Function.update hs p (some (.tx cfg (sent + 1))))
  | rxRefused {cfg : CRxConfig} {code : ℤ} (iface : cfg.iface ≠ none)
      (code_eq : code = wfbRsErrPcap ∧ (∃ rust, cfg.Opens rust) ∨
        code = wfbRsErrInvalidArgument ∧ ∀ rust, ¬ cfg.Opens rust) :
      Serves hs (.rxOpen (some cfg) true) { code := code } hs
  | rxOpened {cfg : CRxConfig} {rust : WfbRxConfig} {box : ℕ} (opens : cfg.Opens rust)
      (free : hs box = none) :
      Serves hs (.rxOpen (some cfg) true) { code := wfbRsOk, opened := some box }
        (Function.update hs box (some (.rx rust [])))
  | rxClosed {p : ℕ} {cfg : WfbRxConfig} {queue : List Frame}
      (live : hs p = some (.rx cfg queue)) :
      Serves hs (.rxClose (some p)) { code := wfbRsOk } (Function.update hs p none)
  | noBuffer {p : ℕ} {cfg : WfbRxConfig} {queue : List Frame} {timeoutMs : UInt32} {outMeta : Bool}
      (live : hs p = some (.rx cfg queue)) :
      Serves hs (.rxRecv (some p) (some []) timeoutMs true outMeta)
        { code := wfbRsErrInvalidArgument, outBuf := some [] } hs
  | received {p : ℕ} {cfg : WfbRxConfig} {queue : List Frame} {buf : List UInt8}
      {timeoutMs : UInt32} {outMeta : Bool} {batches : List (List CapturedPacket)} {f : Frame}
      {rest : List Frame} (live : hs p = some (.rx cfg queue)) (buffer : buf ≠ [])
      (frames : queue ++ batches.flatMap cfg.kept = f :: rest) :
      Serves hs (.rxRecv (some p) (some buf) timeoutMs true outMeta)
        { code := wfbRsOk
          outBuf := some (f.payload.take buf.length ++ buf.drop f.payload.length)
          outLen := some (min f.payload.length buf.length)
          outMeta := pointer outMeta (toCMeta (f.metaFor buf.length))
          drained := batches }
        (Function.update hs p (some (.rx cfg rest)))
  | timedOut {p : ℕ} {cfg : WfbRxConfig} {queue : List Frame} {buf : List UInt8}
      {timeoutMs : UInt32} {outMeta : Bool} {batches : List (List CapturedPacket)}
      (live : hs p = some (.rx cfg queue)) (buffer : buf ≠ [])
      (frames : queue ++ batches.flatMap cfg.kept = []) :
      Serves hs (.rxRecv (some p) (some buf) timeoutMs true outMeta)
        { code := wfbRsErrTimeout
          outBuf := some buf
          outLen := some 0
          outMeta := pointer outMeta default
          drained := batches } hs
  | pollFailed {p : ℕ} {cfg : WfbRxConfig} {queue : List Frame} {buf : List UInt8}
      {timeoutMs : UInt32} {outMeta : Bool} {batches : List (List CapturedPacket)}
      (live : hs p = some (.rx cfg queue)) (buffer : buf ≠ [])
      (frames : queue ++ batches.flatMap cfg.kept = []) :
      Serves hs (.rxRecv (some p) (some buf) timeoutMs true outMeta)
        { code := wfbRsErrIo, outBuf := some buf, drained := batches } hs

/-- The object is what its handle is for. -/
inductive Represents : Boxed → Handle → Prop
  | tx {tx : WfbTx} {cfg : WfbTxConfig} {sent : ℕ} (numbered : WfbTx.Numbered cfg sent tx) :
      Represents (.tx tx) (.tx cfg sent)
  | rx {rx : WfbRx} {cfg : WfbRxConfig} {queue : List Frame} (inv : WfbRx.RingInv rx)
      (kept : rx.kept = cfg.kept) (queue_eq : rx.queue = queue) :
      Represents (.rx rx) (.rx cfg queue)

/-- So are all objects of the heap. -/
def Refines (heap : Heap) (hs : Handles) : Prop := ∀ p, Option.Rel Represents (heap p) (hs p)

/-! ### The heap and the handles -/

section

variable {heap : Heap} {hs : Handles} {p : ℕ}

lemma Refines.update (h : Refines heap hs) {boxed : Option Boxed} {handle : Option Handle}
    (hrel : Option.Rel Represents boxed handle) :
    Refines (Function.update heap p boxed) (Function.update hs p handle) := by
  intro q
  by_cases hq : q = p
  · subst hq
    simpa using hrel
  · simpa [Function.update_of_ne hq] using h q

lemma Refines.free (h : Refines heap hs) (hp : heap p = none) : hs p = none := by
  have hrel := h p
  rw [hp] at hrel
  cases hhs : hs p with
  | none => rfl
  | some handle =>
      rw [hhs] at hrel
      cases hrel

/-- A handle that the library takes for a transmitter is one. -/
lemma Refines.tx (h : Refines heap hs) {tx : WfbTx} (hp : heap.tx (some p) = some tx) :
    ∃ cfg sent, hs p = some (.tx cfg sent) ∧ WfbTx.Numbered cfg sent tx := by
  have hrel := h p
  simp only [Heap.tx, Option.bind_some, Option.bind_eq_some_iff] at hp
  obtain ⟨boxed, hboxed, htx⟩ := hp
  rw [hboxed] at hrel
  cases boxed with
  | rx receiver => simp [Boxed.tx?] at htx
  | tx sender =>
      obtain rfl : sender = tx := Option.some.inj htx
      generalize hhs : hs p = handle at hrel
      cases hrel with
      | some hrep =>
          cases hrep with
          | tx numbered => exact ⟨_, _, rfl, numbered⟩

lemma Refines.rx (h : Refines heap hs) {rx : WfbRx} (hp : heap.rx (some p) = some rx) :
    ∃ cfg, hs p = some (.rx cfg rx.queue) ∧ WfbRx.RingInv rx ∧ rx.kept = cfg.kept := by
  have hrel := h p
  simp only [Heap.rx, Option.bind_some, Option.bind_eq_some_iff] at hp
  obtain ⟨boxed, hboxed, hrx⟩ := hp
  rw [hboxed] at hrel
  cases boxed with
  | tx sender => simp [Boxed.rx?] at hrx
  | rx receiver =>
      obtain rfl : receiver = rx := Option.some.inj hrx
      generalize hhs : hs p = handle at hrel
      cases hrel with
      | some hrep =>
          cases hrep with
          | rx inv kept queue_eq => exact ⟨_, by rw [queue_eq], inv, kept⟩

/-- Behind a receive handle there is a receiver with its queue. -/
lemma Refines.receiver (h : Refines heap hs) {cfg : WfbRxConfig} {queue : List Frame}
    (hp : hs p = some (.rx cfg queue)) :
    ∃ rx, heap p = some (.rx rx) ∧ rx.kept = cfg.kept ∧ rx.queue = queue := by
  have hrel := h p
  rw [hp] at hrel
  generalize heap p = boxed at hrel ⊢
  cases hrel with
  | some hrep =>
      cases hrep with
      | rx inv kept queue_eq => exact ⟨_, rfl, kept, queue_eq⟩

end

/-! ### Opening -/

lemma cIface_error {ptr : Option (List UInt8)} {code : ℤ} (h : cIface ptr = .error code) :
    ptr = none ∧ code = wfbRsErrNullPtr ∨ ptr ≠ none ∧ code = wfbRsErrInvalidArgument := by
  unfold cIface at h
  split at h
  · exact .inl ⟨rfl, (Except.error.inj h).symm⟩
  · refine .inr ⟨by simp, ?_⟩
    split at h
    · exact (Except.error.inj h).symm
    · split at h
      · exact (Except.error.inj h).symm
      · cases h

lemma cIface_ok {ptr : Option (List UInt8)} {name : String} (h : cIface ptr = .ok name) :
    ptr ≠ none ∧ name ≠ "" := by
  unfold cIface at h
  split at h
  · cases h
  · refine ⟨by simp, ?_⟩
    split at h
    · cases h
    · split at h
      · cases h
      · obtain rfl := Except.ok.inj h
        assumption

/-- What an open call answers behind its null checks. -/
inductive OpenAnswer {α : Type} (iface : Option (List UInt8))
    (openRust : String → SysProg (Except WfbError α)) : COpened α → Prop
  | null (absent : iface = none) : OpenAnswer iface openRust ⟨wfbRsErrNullPtr, none⟩
  | unreadable (given : iface ≠ none) (code : cIface iface = .error wfbRsErrInvalidArgument) :
      OpenAnswer iface openRust ⟨wfbRsErrInvalidArgument, none⟩
  | failed {name : String} {e : WfbError} (read : cIface iface = .ok name)
      (returns : (openRust name).Returns (.error e)) : OpenAnswer iface openRust ⟨mapErr e, none⟩
  | opened {name : String} {opened : α} (read : cIface iface = .ok name)
      (returns : (openRust name).Returns (.ok opened)) :
      OpenAnswer iface openRust ⟨wfbRsOk, some opened⟩

lemma openAnswer_of_returns {α : Type} {iface : Option (List UInt8)}
    {openRust : String → SysProg (Except WfbError α)} {out : COpened α}
    (h : (ffiOpen iface openRust none).Returns out) : OpenAnswer iface openRust out := by
  unfold ffiOpen at h
  cases hiface : cIface iface with
  | error code =>
      rw [hiface] at h
      obtain rfl := Prog.returns_done.mp h
      rcases cIface_error hiface with ⟨hnull, rfl⟩ | ⟨hgiven, rfl⟩
      · exact .null hnull
      · exact .unreadable hgiven hiface
  | ok name =>
      simp only [hiface, Prog.returns_bind] at h
      obtain ⟨r, hr, hout⟩ := h
      cases r with
      | error e =>
          obtain rfl := Prog.returns_done.mp hout
          exact .failed hiface hr
      | ok opened =>
          obtain rfl := Prog.returns_done.mp hout
          exact .opened hiface hr

section

variable {heap : Heap} {hs : Handles}

/-- Opening a transmitter starts a stream. -/
lemma Refines.txOpen (h : Refines heap hs) {cfg : Option CTxConfig} {outHandle : Bool}
    {out : COpened WfbTx} {box : ℕ} (returns : (wfbTxOpen cfg (pointer outHandle none)).Returns out)
    (free : heap box = none) : ∃ hs', Serves hs (.txOpen cfg outHandle)
        { code := out.code, opened := out.handle.map fun _ => box } hs' ∧
      Refines (heap.write (out.handle.map fun _ => box) (out.handle.map .tx)) hs' := by
  cases cfg with
  | none =>
      obtain rfl : out = ⟨wfbRsErrNullPtr, none⟩ := by
        cases outHandle <;> exact Prog.returns_done.mp returns
      exact ⟨hs, .null (.inr nofun), h⟩
  | some cfg =>
      cases outHandle with
      | false =>
          obtain rfl : out = ⟨wfbRsErrNullPtr, none⟩ := Prog.returns_done.mp returns
          exact ⟨hs, .null (.inl rfl), h⟩
      | true =>
          cases openAnswer_of_returns returns with
          | null hnull => exact ⟨hs, .null (.inr fun c hc => by rwa [← Option.mem_some.mp hc]), h⟩
          | unreadable hgiven hcode =>
              refine ⟨hs, .txRefused hgiven (.inr ⟨rfl, ?_⟩), h⟩
              rintro rust ⟨name, hname, -⟩
              simp [hcode] at hname
          | @failed name e hname he =>
              refine ⟨hs, .txRefused (cIface_ok hname).1 ?_, h⟩
              rcases WfbTx.returns_open_error he with ⟨errno, rfl⟩ | ⟨⟨msg, rfl⟩, hacc⟩
              · exact .inl rfl
              · refine .inr ⟨rfl, ?_⟩
                rintro rust ⟨name', hname', rfl, hacc'⟩
                obtain rfl : name = name' := Except.ok.inj (hname.symm.trans hname')
                exact hacc hacc'
          | @opened name opened hname hopened =>
              obtain ⟨hacc, fd, rfl⟩ := WfbTx.returns_open.mp hopened
              exact ⟨_, .txOpened ⟨name, hname, rfl, hacc⟩ (h.free free),
                h.update (.some (.tx (WfbTx.opened_numbered _ fd)))⟩

/-- Opening a receiver starts an empty queue. -/
lemma Refines.rxOpen (h : Refines heap hs) {cfg : Option CRxConfig} {outHandle : Bool}
    {out : COpened WfbRx} {box : ℕ} (returns : (wfbRxOpen cfg (pointer outHandle none)).Returns out)
    (free : heap box = none) : ∃ hs', Serves hs (.rxOpen cfg outHandle)
        { code := out.code, opened := out.handle.map fun _ => box } hs' ∧
      Refines (heap.write (out.handle.map fun _ => box) (out.handle.map .rx)) hs' := by
  cases cfg with
  | none =>
      obtain rfl : out = ⟨wfbRsErrNullPtr, none⟩ := by
        cases outHandle <;> exact Prog.returns_done.mp returns
      exact ⟨hs, .null (.inr nofun), h⟩
  | some cfg =>
      cases outHandle with
      | false =>
          obtain rfl : out = ⟨wfbRsErrNullPtr, none⟩ := Prog.returns_done.mp returns
          exact ⟨hs, .null (.inl rfl), h⟩
      | true =>
          cases openAnswer_of_returns returns with
          | null hnull => exact ⟨hs, .null (.inr fun c hc => by rwa [← Option.mem_some.mp hc]), h⟩
          | unreadable hgiven hcode =>
              refine ⟨hs, .rxRefused hgiven (.inr ⟨rfl, ?_⟩), h⟩
              rintro rust ⟨name, hname, -⟩
              simp [hcode] at hname
          | @failed name e hname he =>
              obtain ⟨hgiven, hne⟩ := cIface_ok hname
              refine ⟨hs, .rxRefused hgiven ?_, h⟩
              rcases WfbRx.returns_open_error he with ⟨⟨text, rfl⟩, hstream⟩ | ⟨⟨msg, rfl⟩, hno⟩
              · exact .inl ⟨rfl, cfg.config name, name, hname, rfl, hstream⟩
              · refine .inr ⟨rfl, ?_⟩
                rintro rust ⟨name', -, rfl, hstream⟩
                exact hno ⟨hne, hstream⟩
          | @opened name opened hname hopened =>
              obtain ⟨-, hstream, fd, rfl⟩ := WfbRx.returns_open.mp hopened
              have hinv := WfbRx.fresh_inv (cfg.config name) ⟨fd, filterExp cfg.streamId⟩
              exact ⟨_, .rxOpened ⟨name, hname, rfl, hstream⟩ (h.free free),
                h.update (.some (.rx hinv rfl rfl))⟩

/-! ### Closing -/

lemma Refines.txClose (h : Refines heap hs) {handle : Option ℕ} {code : ℤ}
    (valid : handle ≠ none → heap.tx handle ≠ none)
    (returns : (wfbTxClose (heap.tx handle)).Returns code) :
    ∃ hs', Serves hs (.txClose handle) { code := code } hs' ∧
      Refines (heap.write handle none) hs' := by
  cases handle with
  | none =>
      obtain rfl : code = wfbRsErrNullPtr := Prog.returns_done.mp returns
      exact ⟨hs, .null rfl, h⟩
  | some p =>
      obtain ⟨tx, htx⟩ := Option.ne_none_iff_exists'.mp (valid (by simp))
      obtain ⟨cfg, sent, hp, -⟩ := h.tx htx
      have hcode : code = wfbRsOk := by
        rw [htx] at returns
        obtain ⟨-, -, hret⟩ := Prog.returns_bind.mp returns
        exact Prog.returns_done.mp hret
      subst hcode
      exact ⟨_, .txClosed hp, h.update .none⟩

lemma Refines.rxClose (h : Refines heap hs) {handle : Option ℕ} {code : ℤ}
    (valid : handle ≠ none → heap.rx handle ≠ none)
    (returns : (wfbRxClose (heap.rx handle)).Returns code) :
    ∃ hs', Serves hs (.rxClose handle) { code := code } hs' ∧
      Refines (heap.write handle none) hs' := by
  cases handle with
  | none =>
      obtain rfl : code = wfbRsErrNullPtr := Prog.returns_done.mp returns
      exact ⟨hs, .null rfl, h⟩
  | some p =>
      obtain ⟨rx, hrx⟩ := Option.ne_none_iff_exists'.mp (valid (by simp))
      obtain ⟨cfg, hp, -⟩ := h.rx hrx
      have hcode : code = wfbRsOk := by
        rw [hrx] at returns
        obtain ⟨-, -, hret⟩ := Prog.returns_bind.mp returns
        exact Prog.returns_done.mp hret
      subst hcode
      exact ⟨_, .rxClosed hp, h.update .none⟩

/-! ### Sending -/

/-- A call that changes nothing behind its handle. -/
lemma Refines.same (h : Refines heap hs) {p : ℕ} {boxed : Boxed} {handle : Handle}
    (hp : hs p = some handle) (hrep : Represents boxed handle) :
    Refines (Function.update heap p (some boxed)) hs := by
  have hupdate := h.update (p := p) (.some hrep)
  rwa [← hp, Function.update_eq_self] at hupdate

lemma Refines.txSend (h : Refines heap hs) {handle : Option ℕ} {payload : Option (List UInt8)}
    {payloadLen : ℕ} {seq : UInt32} {rc : Except SysError ℤ} {out : CSendOut}
    (valid : handle ≠ none → heap.tx handle ≠ none)
    (readable : ∀ bytes ∈ payload, payloadLen ≤ bytes.length)
    (returns : out = wfbTxSend (heap.tx handle) payload payloadLen seq rc) :
    ∃ hs', Serves hs (.txSend handle payload payloadLen seq)
        { code := out.code, sent := out.iovecs.map fun iovecs => (iovecs, rc) } hs' ∧
      Refines (heap.write handle (out.handle.map .tx)) hs' := by
  cases handle with
  | none =>
      subst returns
      exact ⟨hs, .null (.inl rfl), h⟩
  | some p =>
      obtain ⟨tx, htx⟩ := Option.ne_none_iff_exists'.mp (valid (by simp))
      obtain ⟨cfg, sent, hp, hnumbered⟩ := h.tx htx
      rw [htx] at returns
      by_cases hnull : payloadLen > 0 ∧ payload = none
      · rw [wfbTxSend, if_pos hnull] at returns
        subst returns
        exact ⟨hs, .null (.inr hnull), h.same hp (.tx hnumbered)⟩
      have hlength : ((payload.getD []).take payloadLen).length = payloadLen := by
        cases payload with
        | none =>
            have hzero : ¬ payloadLen > 0 := fun hpos => hnull ⟨hpos, rfl⟩
            simp [Nat.eq_zero_of_not_pos hzero]
        | some bytes => simpa using readable bytes rfl
      have hgiven : 0 < payloadLen → payload ≠ none := fun hpos hnone => hnull ⟨hpos, hnone⟩
      by_cases hfits : payloadLen ≤ computeMaxPayload
      · have hcall : WfbTx.Call.Fits ⟨(payload.getD []).take payloadLen, seq, rc⟩ :=
          le_of_eq_of_le hlength hfits
        obtain ⟨o, tx', hstep, hiovecs, hnumbered', -⟩ := WfbTx.sendStep_fits hnumbered hcall
        obtain ⟨o', hsend, hret⟩ := bind_eq_ok.mp hstep
        obtain ⟨rfl, rfl⟩ := Prod.mk.inj (Except.ok.inj hret)
        rw [wfbTxSend, if_neg hnull, hsend] at returns
        subst returns
        have hserves := @Serves.sent hs p cfg sent payload payloadLen seq rc hp hfits hgiven
        rw [← WfbTx.send_code hcall hsend] at hserves
        simp only [hiovecs]
        exact ⟨_, hserves, h.update (.some (.tx hnumbered'))⟩
      · obtain ⟨msg, hsend⟩ := tx.send_refused seq rc (hlength ▸ hfits)
        rw [wfbTxSend, if_neg hnull, hsend] at returns
        subst returns
        exact ⟨hs, .tooLarge hp (Nat.lt_of_not_le hfits) (hgiven (by omega)),
          h.same hp (.tx hnumbered)⟩

/-! ### Receiving -/

/-- A call with all its pointers and a buffer takes from the queue, or finds it empty. -/
lemma Refines.recvLive (h : Refines heap hs) {p : ℕ} {rx : WfbRx} {cfg : WfbRxConfig}
    (hp : hs p = some (.rx cfg rx.queue)) (hinv : WfbRx.RingInv rx) (hkept : rx.kept = cfg.kept)
    {buf : List UInt8} (hbuf : buf ≠ []) {timeoutMs : UInt32} {outMeta : Bool} {world : World}
    {out : CRecvOut} {code : ℤ} {left : Option RecvOut}
    (returns : out = wfbRxRecv (some rx) (some buf) timeoutMs (pointer true 0)
      (pointer outMeta default) world) (ended : out.code = some code)
    (left_eq : left = recvLeft (some rx) (some buf) timeoutMs true world) :
    ∃ hs', Serves hs (.rxRecv (some p) (some buf) timeoutMs true outMeta)
        { code := code, outBuf := left.map RecvOut.buf, outLen := out.outLen, outMeta := out.outMeta
          drained := (left.map fun l => l.drained.map Drain.batch).getD [] } hs' ∧
      Refines (heap.write (some p) (((left.map RecvOut.rx).or (some rx)).map .rx)) hs' := by
  obtain ⟨o, hout, hspec⟩ := WfbRx.recv_spec hinv buf (fromMillis timeoutMs.toNat) world
  obtain ⟨f, hanswer, hframes⟩ := hspec.frames
  have hlen : ¬ buf.length = 0 := fun hzero => hbuf (List.length_eq_zero_iff.mp hzero)
  have hleft : left = some o := by
    simp only [left_eq, recvLeft, Option.bind_some, if_true, hout]
    rfl
  have hbatches : rx.queue ++ (o.drained.map Drain.batch).flatMap cfg.kept =
      f.toList ++ o.rx.queue := by
    rw [hframes, List.flatMap_map, hkept]
  have hrep : Represents (.rx o.rx) (.rx cfg o.rx.queue) :=
    .rx hspec.inv (hspec.config.kept.trans hkept) rfl
  simp only [wfbRxRecv, pointer, if_true, if_neg hlen, hout] at returns
  subst hleft
  cases hanswer with
  | frame f hresult hbufeq =>
      simp only [hresult] at returns
      subst returns
      obtain rfl := Option.some.inj ended
      refine ⟨_, ?_, h.update (.some hrep)⟩
      simp only [Option.map_some, Option.getD_some, hbufeq]
      cases outMeta <;> exact .received hp hbuf hbatches
  | timeout hresult hqueue hbufeq =>
      simp only [hresult] at returns
      subst returns
      obtain rfl := Option.some.inj ended
      rw [hqueue] at hbatches hrep
      have hqueue₀ : rx.queue = [] := (List.append_eq_nil_iff.mp hbatches).1
      refine ⟨hs, ?_, h.same hp (hqueue₀ ▸ hrep)⟩
      simp only [Option.map_some, Option.getD_some, hbufeq]
      cases outMeta <;> exact .timedOut hp hbuf hbatches
  | failed errno hresult hqueue hbufeq =>
      simp only [hresult] at returns
      subst returns
      obtain rfl := Option.some.inj ended
      rw [hqueue] at hbatches hrep
      have hqueue₀ : rx.queue = [] := (List.append_eq_nil_iff.mp hbatches).1
      refine ⟨hs, ?_, h.same hp (hqueue₀ ▸ hrep)⟩
      simp only [Option.map_some, Option.getD_some, hbufeq]
      exact .pollFailed hp hbuf hbatches
  | rejected hempty => exact absurd hempty hbuf
  | running hresult =>
      simp only [hresult] at returns
      subst returns
      cases ended

lemma Refines.rxRecv (h : Refines heap hs) {handle : Option ℕ} {outBuf : Option (List UInt8)}
    {timeoutMs : UInt32} {outLen outMeta : Bool} {world : World} {out : CRecvOut} {code : ℤ}
    {left : Option RecvOut} (valid : handle ≠ none → heap.rx handle ≠ none)
    (returns : out = wfbRxRecv (heap.rx handle) outBuf timeoutMs (pointer outLen 0)
      (pointer outMeta default) world) (ended : out.code = some code)
    (left_eq : left = recvLeft (heap.rx handle) outBuf timeoutMs outLen world) :
    ∃ hs', Serves hs (.rxRecv handle outBuf timeoutMs outLen outMeta)
        { code := code, outBuf := left.map RecvOut.buf, outLen := out.outLen, outMeta := out.outMeta
          drained := (left.map fun l => l.drained.map Drain.batch).getD [] } hs' ∧
      Refines (heap.write handle (((left.map RecvOut.rx).or (heap.rx handle)).map .rx)) hs' := by
  cases handle with
  | none =>
      subst returns left_eq
      obtain rfl := Option.some.inj ended
      exact ⟨hs, .null (.inl rfl), h⟩
  | some p =>
      obtain ⟨rx, hrx⟩ := Option.ne_none_iff_exists'.mp (valid (by simp))
      obtain ⟨cfg, hp, hinv, hkept⟩ := h.rx hrx
      have hsame := h.same hp (.rx hinv hkept rfl)
      rw [hrx] at returns left_eq ⊢
      cases outBuf with
      | none =>
          subst returns left_eq
          obtain rfl := Option.some.inj ended
          exact ⟨hs, .null (.inr (.inl rfl)), hsame⟩
      | some buf =>
          cases outLen with
          | false =>
              subst returns left_eq
              obtain rfl := Option.some.inj ended
              exact ⟨hs, .null (.inr (.inr rfl)), hsame⟩
          | true =>
              by_cases hbuf : buf = []
              · subst hbuf returns left_eq
                obtain rfl := Option.some.inj ended
                exact ⟨hs, .noBuffer hp, hsame⟩
              · exact h.recvLive hp hinv hkept hbuf returns ended left_eq

/-! ### Runs -/

/-- Every call is served. -/
lemma Refines.step (h : Refines heap hs) {call : Call} {answer : Answer} {heap' : Heap}
    (hstep : Step heap call answer heap') :
    ∃ hs', Serves hs call answer hs' ∧ Refines heap' hs' := by
  cases hstep with
  | txOpen returns free => exact h.txOpen returns free
  | txClose valid returns => exact h.txClose valid returns
  | txSend valid readable returns => exact h.txSend valid readable returns
  | rxOpen returns free => exact h.rxOpen returns free
  | rxClose valid returns => exact h.rxClose valid returns
  | rxRecv valid returns ended left_eq => exact h.rxRecv valid returns ended left_eq

end

/-- Calls served one after the other. -/
inductive Served : Handles → List Event → Handles → Prop
  | nil (hs : Handles) : Served hs [] hs
  | cons {hs hs' hs'' : Handles} {call : Call} {answer : Answer} {events : List Event}
      (first : Serves hs call answer hs') (rest : Served hs' events hs'') :
      Served hs (⟨call, answer⟩ :: events) hs''

lemma Run.served {heap heap' : Heap} {events : List Event} (h : Run heap events heap')
    {hs : Handles} (hrefines : Refines heap hs) :
    ∃ hs', Served hs events hs' ∧ Refines heap' hs' := by
  induction h generalizing hs with
  | nil heap => exact ⟨hs, .nil hs, hrefines⟩
  | cons step rest ih =>
      obtain ⟨hs', hserves, hrefines'⟩ := hrefines.step step
      obtain ⟨hs'', hserved, hrefines''⟩ := ih hrefines'
      exact ⟨hs'', .cons hserves hserved, hrefines''⟩

/-- Each call of a run is served from some handles. -/
lemma Served.serves {hs hs' : Handles} {events : List Event} (h : Served hs events hs') {e : Event}
    (he : e ∈ events) : ∃ hs₁ hs₂, Serves hs₁ e.call e.answer hs₂ := by
  induction h with
  | nil => cases he
  | cons first rest ih =>
      rcases List.mem_cons.mp he with rfl | he
      · exact ⟨_, _, first⟩
      · exact ih he

/-- The codes that a call may answer. -/
def Call.codes : Call → List ℤ
  | .txOpen .. => [wfbRsOk, wfbRsErrNullPtr, wfbRsErrInvalidArgument, wfbRsErrIo]
  | .txClose .. => [wfbRsOk, wfbRsErrNullPtr]
  | .txSend .. => [wfbRsOk, wfbRsErrNullPtr, wfbRsErrInvalidArgument, wfbRsErrIo]
  | .rxOpen .. => [wfbRsOk, wfbRsErrNullPtr, wfbRsErrInvalidArgument, wfbRsErrPcap]
  | .rxClose .. => [wfbRsOk, wfbRsErrNullPtr]
  | .rxRecv .. => [wfbRsOk, wfbRsErrNullPtr, wfbRsErrInvalidArgument, wfbRsErrIo, wfbRsErrTimeout]

/-- No call answers the code of a panic. -/
lemma Call.internal_not_mem (call : Call) : wfbRsErrInternal ∉ call.codes := by
  cases call <;> simp only [Call.codes] <;> decide

lemma Serves.code_mem {hs hs' : Handles} {call : Call} {answer : Answer}
    (h : Serves hs call answer hs') : answer.code ∈ call.codes := by
  cases h with
  | null => cases call <;> simp [Call.codes]
  | txRefused iface code_eq =>
      rcases code_eq with rfl | ⟨rfl, -⟩ <;> simp [Call.codes]
  | rxRefused iface code_eq =>
      rcases code_eq with ⟨rfl, -⟩ | ⟨rfl, -⟩ <;> simp [Call.codes]
  | @sent p cfg sent payload payloadLen seq rc => cases rc.isOk <;> simp [Call.codes]
  | _ => simp [Call.codes]

/-- The code for a null pointer is answered to calls with one, and to no others. -/
lemma Serves.null_iff {hs hs' : Handles} {call : Call} {answer : Answer}
    (h : Serves hs call answer hs') : answer.code = wfbRsErrNullPtr ↔ call.HasNull := by
  have hok : wfbRsOk ≠ wfbRsErrNullPtr := by decide
  have hio : wfbRsErrIo ≠ wfbRsErrNullPtr := by decide
  cases h with
  | null null => exact iff_of_true rfl null
  | txRefused iface code_eq =>
      refine iff_of_false ?_ (by simpa [Call.HasNull] using iface)
      rcases code_eq with rfl | ⟨rfl, -⟩ <;> decide
  | txOpened opens free =>
      obtain ⟨name, hname, -⟩ := opens
      exact iff_of_false hok (by simpa [Call.HasNull] using (cIface_ok hname).1)
  | txClosed live => exact iff_of_false hok nofun
  | tooLarge live large given =>
      refine iff_of_false (by decide) ?_
      rintro (hnull | ⟨-, hnull⟩)
      · cases hnull
      · exact given hnull
  | @sent p cfg sent payload payloadLen seq rc live fits given =>
      refine iff_of_false (show (if rc.isOk then wfbRsOk else wfbRsErrIo) ≠ _ by split <;> decide) ?_
      rintro (hnull | ⟨hpos, hnull⟩)
      · cases hnull
      · exact given hpos hnull
  | rxRefused iface code_eq =>
      refine iff_of_false ?_ (by simpa [Call.HasNull] using iface)
      rcases code_eq with ⟨rfl, -⟩ | ⟨rfl, -⟩ <;> decide
  | rxOpened opens free =>
      obtain ⟨name, hname, -⟩ := opens
      exact iff_of_false hok (by simpa [Call.HasNull] using (cIface_ok hname).1)
  | rxClosed live => exact iff_of_false hok nofun
  | noBuffer live => exact iff_of_false (by decide) (by simp [Call.HasNull])
  | received live buffer frames => exact iff_of_false hok (by simp [Call.HasNull])
  | timedOut live buffer frames =>
      exact iff_of_false (show wfbRsErrTimeout ≠ wfbRsErrNullPtr by decide) (by simp [Call.HasNull])
  | pollFailed live buffer frames => exact iff_of_false hio (by simp [Call.HasNull])

/-! ### A process that sends and receives -/

/-- Stream 1 on `wlan0`. -/
def cStream1 : CTxConfig :=
  ⟨some [0x77, 0x6c, 0x61, 0x6e, 0x30, 0], 1, wfbFrameTypeData, 0, 0⟩

def cListen1 : CRxConfig := ⟨some [0x77, 0x6c, 0x61, 0x6e, 0x30, 0], 1, 0, 4⟩

/-- The process opens both ends, sends two bytes, and asks for a frame. -/
def openCall : Call := .txOpen (some cStream1) true

def listenCall : Call := .rxOpen (some cListen1) true

def sendCall : Call := .txSend (some 16) (some [0x68, 0x69]) 2 7

def recvCall : Call := .rxRecv (some 32) (some [0, 0, 0, 0]) 1 true true

def talk (sent received : Answer) : List Event :=
  [⟨openCall, { code := wfbRsOk, opened := some 16 }⟩,
    ⟨listenCall, { code := wfbRsOk, opened := some 32 }⟩, ⟨sendCall, sent⟩, ⟨recvCall, received⟩]

lemma returns_openCall : (wfbTxOpen (some cStream1) (pointer true none)).Returns
    ⟨wfbRsOk, some (WfbTx.opened WfbTx.stream1 3)⟩ := by
  have hiface : cIface cStream1.iface = .ok "wlan0" := by decide +kernel
  exact (@returns_ffiOpen _ cStream1.iface (fun iface => WfbTx.open (cStream1.config iface)) none
    _).mpr ⟨"wlan0", _, hiface, WfbTx.open_stream1, rfl⟩ |>.1

lemma returns_listenCall : (wfbRxOpen (some cListen1) (pointer true none)).Returns
    ⟨wfbRsOk, some WfbRx.onWlan0⟩ := by
  have hiface : cIface cListen1.iface = .ok "wlan0" := by decide +kernel
  exact (@returns_ffiOpen _ cListen1.iface (fun iface => WfbRx.open (cListen1.config iface)) none
    _).mpr ⟨"wlan0", _, hiface, WfbRx.opened_onWlan0, rfl⟩ |>.1

/-- A receive call that comes to a frame. -/
lemma Step.frame {heap : Heap} {p : ℕ} {rx : WfbRx} (hrx : heap.rx (some p) = some rx)
    {buf : List UInt8} (hbuf : buf ≠ []) {timeoutMs : UInt32} {outMeta : Bool} {world : World}
    {out : RecvOut} {f : Frame}
    (hout : WfbRx.recv rx buf (fromMillis timeoutMs.toNat) world = .ok out)
    (hanswer : WfbRx.Answer rx buf world out (some f)) :
    Step heap (.rxRecv (some p) (some buf) timeoutMs true outMeta)
      { code := wfbRsOk
        outBuf := some (f.payload.take buf.length ++ buf.drop f.payload.length)
        outLen := some (min f.payload.length buf.length)
        outMeta := pointer outMeta (toCMeta (f.metaFor buf.length))
        drained := out.drained.map Drain.batch }
      (heap.write (some p) (some (.rx out.rx))) := by
  have hlen : ¬ buf.length = 0 := fun hzero => hbuf (List.length_eq_zero_iff.mp hzero)
  cases hanswer with
  | frame f hresult hbufeq =>
      have hstep := @Step.rxRecv heap (some p) (some buf) timeoutMs true outMeta world _ wfbRsOk _
        (fun _ => by simp [hrx]) rfl
        (by simp only [hrx, wfbRxRecv, pointer, if_true, if_neg hlen, hout, hresult]) rfl
      simp only [hrx, wfbRxRecv, recvLeft, pointer, if_true, if_neg hlen, hout, hresult,
        Option.bind_some, Except.toOption, Option.map_some, Option.getD_some, Option.some_or,
        hbufeq] at hstep
      cases outMeta <;> exact hstep

lemma kept_twoDrains : (twoDrains.flatMap WfbRx.onWlan0.kept).map Frame.content =
    [([0x68, 0x69], 7, 0)] := by decide +kernel

/-- The frame is found behind a batch without one. -/
lemma run_talk : ∃ sent received heap rx, Run (fun _ => none) (talk sent received) heap ∧
    sent.code = wfbRsOk ∧ received.code = wfbRsOk ∧
    received.outBuf = some [0x68, 0x69, 0, 0] ∧ received.outLen = some 2 ∧
    received.drained = twoDrains ∧ heap 32 = some (.rx rx) ∧ rx.queue = [] := by
  obtain ⟨f, hf, hcontent⟩ := List.map_eq_singleton_iff.mp kept_twoDrains
  have hpayload : f.payload = [0x68, 0x69] := congrArg Prod.fst hcontent
  obtain ⟨out, hout, hanswer, hspec, hleft, -⟩ := WfbRx.recv_takes attended_twoDrains
    (WfbRx.opened_inv WfbRx.opened_onWlan0).1 (show ([0, 0, 0, 0] : List UInt8) ≠ [] by decide)
    le_rfl hf
  obtain ⟨hqueue, hkept⟩ := List.append_eq_nil_iff.mp hleft
  -- both batches are drained: the frame is in the second one
  have hsecond : WfbRx.onWlan0.kept (twoDrains.getD 1 []) ≠ [] := by decide +kernel
  have hdrained : out.drained.map Drain.batch = twoDrains := by
    have hnot : twoDrains.getD 1 [] ∉ out.world.captures := by
      rw [hspec.config.kept] at hkept
      exact fun hmem => hsecond (List.flatMap_eq_nil_iff.mp hkept _ hmem)
    have hcaptures : [twoDrains.getD 0 [], twoDrains.getD 1 []] =
        out.drained.map Drain.batch ++ out.world.captures := hspec.captures
    rcases hdrains : out.drained.map Drain.batch with _ | ⟨d, _ | ⟨d', drained⟩⟩
    · rw [hdrains, List.nil_append] at hcaptures
      exact absurd (hcaptures ▸ by simp) hnot
    · rw [hdrains] at hcaptures
      have hleft : [twoDrains.getD 1 []] = out.world.captures := (List.cons.inj hcaptures).2
      exact absurd (hleft ▸ List.mem_singleton_self _) hnot
    · rw [hdrains] at hcaptures
      obtain ⟨rfl, htail⟩ := List.cons.inj hcaptures
      obtain ⟨rfl, hnil⟩ := List.cons.inj htail
      rw [(List.append_eq_nil_iff.mp hnil.symm).1]
      rfl
  refine ⟨_, _, _, out.rx, .cons (.txOpen returns_openCall rfl)
    (.cons (.rxOpen returns_listenCall rfl) (.cons (@Step.txSend _ (some 16) (some [0x68, 0x69]) 2 7
      (.ok 0) _ (fun _ => nofun) (by simp) rfl)
      (.cons (Step.frame rfl (by decide) hout hanswer) (.nil _)))), rfl, rfl, ?_, ?_, hdrained,
    rfl, hqueue⟩
  · simp [hpayload]
  · simp [hpayload]

/-- **The C interface.** In every run of a process that calls it on null and live handles, every
call is served as the streams and queues of the handles say; none answers the code of a panic, and
the code for a null pointer is answered to the calls with one and to no others. -/
theorem run_served {events : List Event} {heap : Heap} (h : Run (fun _ => none) events heap) :
    (∃ hs, Served (fun _ => none) events hs ∧ Refines heap hs) ∧
      ∀ e ∈ events, e.answer.code ∈ e.call.codes ∧ e.answer.code ≠ wfbRsErrInternal ∧
        (e.answer.code = wfbRsErrNullPtr ↔ e.call.HasNull) := by
  have hnone : Refines (fun _ => none) fun _ => none := fun _ => .none
  obtain ⟨hs, hserved, hrefines⟩ := h.served hnone
  refine ⟨⟨hs, hserved, hrefines⟩, fun e he => ?_⟩
  obtain ⟨hs₁, hs₂, hserves⟩ := hserved.serves he
  refine ⟨hserves.code_mem, fun hcode => ?_, hserves.null_iff⟩
  exact Call.internal_not_mem e.call (hcode ▸ hserves.code_mem)

theorem sendCall_served : ∃ sent received heap hs, Run (fun _ => none) (talk sent received) heap ∧
    Served (fun _ => none) (talk sent received) hs ∧ Refines heap hs ∧
    (talk sent received).map (fun e => e.answer.code) =
      [wfbRsOk, wfbRsOk, wfbRsOk, wfbRsOk] ∧
    received.outBuf = some [0x68, 0x69, 0, 0] ∧ received.outLen = some 2 ∧
    ∀ e ∈ talk sent received, e.answer.code ∈ e.call.codes ∧ e.answer.code ≠ wfbRsErrInternal ∧
      (e.answer.code = wfbRsErrNullPtr ↔ e.call.HasNull) := by
  obtain ⟨sent, received, heap, rx, hrun, hsent, hreceived, hbuf, hlen, -⟩ := run_talk
  obtain ⟨⟨hs, hserved, hrefines⟩, hcodes⟩ := run_served hrun
  refine ⟨sent, received, heap, hs, hrun, hserved, hrefines, ?_, hbuf, hlen, hcodes⟩
  simp only [talk, List.map_cons, List.map_nil, hsent, hreceived]

end CApi

end WfbRs
