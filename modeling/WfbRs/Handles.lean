import WfbRs.Ffi
import WfbRs.Rx.Runs

/-!
# The descriptors of the handles

The life of a handle as a program over the descriptor table: it is opened, used, and then kept
or ended in one of the ways the library offers.  The handles of a process run interleaved with
one another and with components that open and close descriptors of their own.
-/

namespace WfbRs

open Rust Descriptor

/-! ### Lives -/

/-- System calls that neither open nor close a descriptor. -/
def systemCalls : ℕ → SysProg Unit
  | 0 => return ()
  | n + 1 => .call fun _ => systemCalls n

/-- The polls of a run of `recv` calls, and its reads of the capture. -/
def WfbRx.RecvRun.systemCalls (run : RecvRun) : ℕ :=
  (run.steps.map fun s =>
    s.out.polled.length + (s.out.drained.map fun d => d.batch.length + 1).sum).sum

/-- How a receiver ends: not yet, by a drop, or by `wfb_rx_close`. -/
inductive RxEnding
  | kept
  | dropped
  | ffiClosed
deriving DecidableEq, Repr

/-- How a transmitter ends: not yet, by a drop, by `WfbTx::close` or by `wfb_tx_close`. -/
inductive TxEnding
  | kept
  | dropped
  | closed
  | ffiClosed
deriving DecidableEq, Repr

/-- The programs of this section say whether the handle is still there. -/
def RxEnding.run (rx : WfbRx) : RxEnding → SysProg Bool
  | kept => return true
  | dropped => do
      rx.drop
      return false
  | ffiClosed => do
      let _ ← wfbRxClose (some rx)
      return false

def TxEnding.run (tx : WfbTx) : TxEnding → SysProg Bool
  | kept => return true
  | dropped => do
      tx.drop
      return false
  | closed => do
      tx.close
      return false
  | ffiClosed => do
      let _ ← wfbTxClose (some tx)
      return false

/-- A receiver: the calls of `recv` on it, what they find, and its end. -/
structure RxLife where
  cfg : WfbRxConfig
  world : World
  calls : List WfbRx.RecvCall
  ending : RxEnding

/-- A transmitter: what is sent on it, and its end. -/
structure TxLife where
  cfg : WfbTxConfig
  sends : List (List UInt8 × UInt32)
  ending : TxEnding

/-- `sendmsg`, which `send` reaches with a payload that fits. -/
def sendmsg (payload : List UInt8) : SysProg (Except SysError ℤ) :=
  if payload.length > computeMaxPayload then return .ok 0 else .call .done

/-- Calls of `send` on a transmitter. -/
def transmit (tx : WfbTx) : List (List UInt8 × UInt32) → SysProg (Checked WfbTx)
  | [] => return .ok tx
  | (payload, seq) :: rest => do
      let rc ← sendmsg payload
      match tx.send payload seq rc with
      | .error fault => return .error fault
      | .ok out => transmit out.tx rest

/-- A panic would unwind and drop the receiver. -/
def RxLife.prog (l : RxLife) : SysProg Bool := do
  match ← WfbRx.open l.cfg with
  | .error _ => return false
  | .ok rx =>
      match rx.recvs l.world l.calls with
      | .error _ => RxEnding.dropped.run rx
      | .ok run =>
          systemCalls run.systemCalls
          l.ending.run run.rx

/-- A panic would unwind and drop the transmitter. -/
def TxLife.prog (l : TxLife) : SysProg Bool := do
  match ← WfbTx.open l.cfg with
  | .error _ => return false
  | .ok tx =>
      match ← transmit tx l.sends with
      | .error _ => TxEnding.dropped.run tx
      | .ok tx => l.ending.run tx

/-- A handle of either kind. -/
inductive Life
  | rx (l : RxLife)
  | tx (l : TxLife)

def Life.prog : Life → SysProg Bool
  | rx l => l.prog
  | tx l => l.prog

/-- The receiver passes the checks of `open`, so that a capture is opened. -/
def RxLife.Opens (l : RxLife) : Prop := l.cfg.iface ≠ "" ∧ l.cfg.streamId ≠ 0

/-- The transmitter passes the first checks of `open`, so that a socket is opened. -/
def TxLife.Opens (l : TxLife) : Prop :=
  l.cfg.iface ≠ "" ∧ l.cfg.streamId ≠ 0 ∧
    (l.cfg.frameType = wfbFrameTypeData ∨ l.cfg.frameType = wfbFrameTypeRts)

/-! ### What the handles own -/

lemma owns_systemCalls (n : ℕ) (held : Option ℕ) :
    (systemCalls n).Owns (fun _ held' => held' = held) held := by
  induction n with
  | zero => rfl
  | succ n ih => exact fun _ => ih

/-- `WfbRx::open` holds the descriptor of the receiver it returns, and none after an error. -/
lemma WfbRx.owns_open (cfg : WfbRxConfig) : (WfbRx.open cfg).Owns
    (fun r held => match r with
      | .ok rx => ∃ fd, rx = fresh cfg ⟨fd, filterExp cfg.streamId⟩ ∧ held = some fd
      | .error _ => held = none) none := by
  by_cases hiface : cfg.iface = ""
  · simp only [WfbRx.open, if_pos hiface]
    rfl
  by_cases hstream : cfg.streamId = 0
  · simp only [WfbRx.open, if_neg hiface, if_pos hstream]
    rfl
  simp only [WfbRx.open, if_neg hiface, if_neg hstream]
  rintro (e | _)
  · rfl
  refine ⟨rfl, ?_⟩
  rintro (e | fd)
  · rfl
  -- behind the open, `setnonblock` and `filter` may fail: the capture is dropped
  rintro (e | _)
  · exact ⟨rfl, rfl⟩
  rintro (e | _)
  · exact ⟨rfl, rfl⟩
  · exact ⟨fd, rfl, rfl⟩

/-- Without a capture a receiver ends at once. -/
lemma RxLife.prog_of_not_opens {l : RxLife} (h : ¬ l.Opens) : l.prog = .done false := by
  by_cases hiface : l.cfg.iface = ""
  · simp only [RxLife.prog, WfbRx.open, if_pos hiface]
    rfl
  · have hstream : l.cfg.streamId = 0 := by
      by_contra hstream
      exact h ⟨hiface, hstream⟩
    simp only [RxLife.prog, WfbRx.open, if_neg hiface, if_pos hstream]
    rfl

/-- A receiver that is kept closes only what is its own. -/
lemma RxLife.owns {l : RxLife} (h : l.Opens → l.ending = .kept) : l.prog.Owns Tells none := by
  by_cases hopens : l.Opens
  · refine (WfbRx.owns_open l.cfg).bind ?_
    rintro (e | rx) held hheld
    · rw [hheld]
      rfl
    · obtain ⟨fd, hrx, rfl⟩ := hheld
      have hinv : WfbRx.RingInv rx := hrx ▸ WfbRx.fresh_inv _ _
      obtain ⟨run, taken, hrun, hspec⟩ := WfbRx.recvs_spec hinv l.world l.calls
      -- no call panics, so the run ends as planned
      simp only [hrun, h hopens]
      refine (owns_systemCalls run.systemCalls (some fd)).bind ?_
      rintro - held rfl
      rfl
  · rw [RxLife.prog_of_not_opens hopens]
    rfl

/-- The socket is held exactly when it is returned. -/
lemma WfbTx.owns_openPfpacketTxSocket (iface : String) :
    (openPfpacketTxSocket iface).Owns
      (fun r held => match r with
        | .ok fd => held = some fd ∧ iface.utf8ByteSize < ifnamsiz
        | .error _ => held = none) none := by
  refine ⟨rfl, ?_⟩
  rintro (e | fd)
  · rfl
  -- the outcome of `setsockopt` does not matter
  intro _
  by_cases hlen : iface.utf8ByteSize = 0 ∨ iface.utf8ByteSize ≥ ifnamsiz
  · simp only [if_pos hlen]
    exact ⟨rfl, rfl⟩
  simp only [if_neg hlen]
  rintro (e | _)
  · exact ⟨rfl, rfl⟩
  rintro (e | _)
  · exact ⟨rfl, rfl⟩
  · exact ⟨rfl, by omega⟩

/-- `WfbTx::open` holds the socket of the transmitter it returns, and none after an error. -/
lemma WfbTx.owns_open (cfg : WfbTxConfig) : (WfbTx.open cfg).Owns
    (fun r held => match r with
      | .ok tx => ∃ fd, tx = opened cfg fd ∧ held = some fd ∧ Accepts cfg
      | .error _ => held = none) none := by
  by_cases hiface : cfg.iface = ""
  · simp only [WfbTx.open, if_pos hiface]
    rfl
  by_cases hstream : cfg.streamId = 0
  · simp only [WfbTx.open, if_neg hiface, if_pos hstream]
    rfl
  by_cases htype : cfg.frameType ≠ wfbFrameTypeData ∧ cfg.frameType ≠ wfbFrameTypeRts
  · simp only [WfbTx.open, if_neg hiface, if_neg hstream, if_pos htype]
    rfl
  simp only [WfbTx.open, if_neg hiface, if_neg hstream, if_neg htype]
  refine (owns_openPfpacketTxSocket cfg.iface).bind ?_
  rintro (e | fd) held hheld
  · exact hheld
  obtain ⟨rfl, hname⟩ := hheld
  cases hbuild : buildRadiotapHt (around cfg fd) (if cfg.mcsIndex = 0 then 1 else cfg.mcsIndex)
      (if cfg.bandwidth = 0 then 20 else cfg.bandwidth) with
  | error e =>
      -- the transmitter exists already, and is dropped
      simp only [hbuild]
      exact ⟨rfl, rfl⟩
  | ok tx =>
      obtain ⟨hmcs, hbw, rfl⟩ := (buildRadiotapHt_around fd).mp hbuild
      simp only [hbuild]
      exact ⟨fd, rfl, rfl, hiface, hstream, by tauto, hname, hmcs, hbw⟩

/-- `send` does not fault and keeps the socket. -/
lemma WfbTx.send_ok {cfg : WfbTxConfig} {tx : WfbTx} (h : HeaderInv cfg tx) (payload : List UInt8)
    (seq : UInt32) (rc : Except SysError ℤ) :
    ∃ out, tx.send payload seq rc = .ok out ∧ HeaderInv cfg out.tx ∧ out.tx.fd = tx.fd := by
  by_cases hfits : payload.length ≤ computeMaxPayload
  · obtain ⟨out, hsend, hinv, hfd, -⟩ := send_spec h hfits seq rc
    exact ⟨out, hsend, hinv, hfd⟩
  · obtain ⟨e, hsend⟩ := send_too_large tx seq rc hfits
    exact ⟨_, hsend, h, rfl⟩

lemma owns_transmit {cfg : WfbTxConfig} {tx : WfbTx} (h : WfbTx.HeaderInv cfg tx)
    (sends : List (List UInt8 × UInt32)) : (transmit tx sends).Owns
      (fun r held => ∃ tx', r = .ok tx' ∧ tx'.fd = tx.fd ∧ held = some tx.fd) (some tx.fd) := by
  induction sends generalizing tx with
  | nil => exact ⟨tx, rfl, rfl, rfl⟩
  | cons s rest ih =>
      obtain ⟨payload, seq⟩ := s
      have hsendmsg : (sendmsg payload).Owns (fun _ held => held = some tx.fd) (some tx.fd) := by
        rw [sendmsg]
        split
        · rfl
        · exact fun _ => rfl
      refine hsendmsg.bind ?_
      rintro rc held rfl
      obtain ⟨out, hsend, hinv, hfd⟩ := WfbTx.send_ok h payload seq rc
      simp only [hsend]
      rw [← hfd]
      exact ih hinv

/-- Without a socket a transmitter ends at once. -/
lemma TxLife.prog_of_not_opens {l : TxLife} (h : ¬ l.Opens) : l.prog = .done false := by
  by_cases hiface : l.cfg.iface = ""
  · simp only [TxLife.prog, WfbTx.open, if_pos hiface]
    rfl
  by_cases hstream : l.cfg.streamId = 0
  · simp only [TxLife.prog, WfbTx.open, if_neg hiface, if_pos hstream]
    rfl
  · have htype : l.cfg.frameType ≠ wfbFrameTypeData ∧ l.cfg.frameType ≠ wfbFrameTypeRts := by
      by_contra htype
      exact h ⟨hiface, hstream, by tauto⟩
    simp only [TxLife.prog, WfbTx.open, if_neg hiface, if_neg hstream, if_pos htype]
    rfl

/-- A transmitter that is not ended by `close` closes only what is its own. -/
lemma TxLife.owns {l : TxLife} (h : WfbTx.Accepts l.cfg → l.ending ≠ .closed) :
    l.prog.Owns Tells none := by
  refine (WfbTx.owns_open l.cfg).bind ?_
  rintro (e | tx) held hheld
  · rw [hheld]
    rfl
  obtain ⟨fd, htx, rfl, hacc⟩ := hheld
  have hinv : WfbTx.HeaderInv l.cfg tx := htx ▸ WfbTx.opened_inv l.cfg fd
  have hfd : tx.fd = fd := by rw [htx]; rfl
  rw [← hfd]
  refine (owns_transmit hinv l.sends).bind ?_
  rintro r held ⟨tx', rfl, hfd', rfl⟩
  rw [← hfd']
  cases hending : l.ending with
  | kept => rfl
  | closed => exact absurd hending (h hacc)
  | dropped => exact ⟨rfl, rfl⟩
  | ffiClosed => exact ⟨rfl, rfl⟩

/-! ### Handles that close twice -/

/-- An open that fails behind the capture closes it. -/
lemma WfbRx.opensAndCloses_open {cfg : WfbRxConfig} (hiface : cfg.iface ≠ "")
    (hstream : cfg.streamId ≠ 0) : (WfbRx.open cfg).OpensAndCloses := by
  simp only [WfbRx.open, if_neg hiface, if_neg hstream]
  exact ⟨_, .call (.ok 0) (.refl _), fun n => .call (.error ⟨0, ""⟩) .release⟩

lemma WfbRx.opensTo_open {cfg : WfbRxConfig} (hiface : cfg.iface ≠ "")
    (hstream : cfg.streamId ≠ 0) :
    (WfbRx.open cfg).OpensTo fun n => .ok (fresh cfg ⟨n, filterExp cfg.streamId⟩) := by
  simp only [WfbRx.open, if_neg hiface, if_neg hstream]
  exact ⟨_, .call (.ok 0) (.refl _), fun n => .call (.ok 0) (.call (.ok 0) (.refl _))⟩

lemma callsTo_systemCalls (n : ℕ) : (systemCalls n).CallsTo (.done ()) := by
  induction n with
  | zero => exact .refl _
  | succ n ih => exact .call (.ok 0) ih

/-- Dropping a receiver closes its number and drops its capture, which closes it again. -/
lemma RxEnding.run_eq {ending : RxEnding} (h : ending ≠ .kept) (rx : WfbRx) :
    ending.run rx = .release rx.fd (.release rx.pcap.fd (.done false)) := by
  cases ending with
  | kept => exact absurd rfl h
  | dropped => rfl
  | ffiClosed => rfl

lemma RxLife.closesTwice {l : RxLife} (h : l.Opens) (hending : l.ending ≠ .kept) :
    l.prog.ClosesTwice := by
  refine (WfbRx.opensTo_open h.1 h.2).closesTwice fun n => ?_
  obtain ⟨run, taken, hrun, hspec⟩ :=
    WfbRx.recvs_spec (WfbRx.fresh_inv l.cfg ⟨n, filterExp l.cfg.streamId⟩) l.world l.calls
  have hfd : run.rx.fd = n := hspec.config.fd
  have hpcap : run.rx.pcap.fd = n := by
    rw [hspec.config.pcap]
    rfl
  simp only [hrun, RxEnding.run_eq hending, hfd, hpcap]
  exact ⟨_, (callsTo_systemCalls run.systemCalls).bind _, .release⟩

/-- An open that fails behind the socket closes it. -/
lemma WfbTx.opensAndCloses_open {cfg : WfbTxConfig} (hiface : cfg.iface ≠ "")
    (hstream : cfg.streamId ≠ 0)
    (htype : cfg.frameType = wfbFrameTypeData ∨ cfg.frameType = wfbFrameTypeRts) :
    (WfbTx.open cfg).OpensAndCloses := by
  have htype' : ¬ (cfg.frameType ≠ wfbFrameTypeData ∧ cfg.frameType ≠ wfbFrameTypeRts) := by tauto
  simp only [WfbTx.open, if_neg hiface, if_neg hstream, if_neg htype']
  refine Prog.OpensAndCloses.bind ⟨_, .refl _, fun n => ?_⟩ _
  by_cases hlen : cfg.iface.utf8ByteSize = 0 ∨ cfg.iface.utf8ByteSize ≥ ifnamsiz
  · refine .call (.ok 0) ?_
    simp only [if_pos hlen]
    exact .release
  · refine .call (.ok 0) ?_
    simp only [if_neg hlen]
    exact .call (.error ⟨0, ""⟩) .release

lemma WfbTx.opensTo_open {cfg : WfbTxConfig} (h : Accepts cfg) :
    (WfbTx.open cfg).OpensTo fun n => .ok (opened cfg n) := by
  have htype : ¬ (cfg.frameType ≠ wfbFrameTypeData ∧ cfg.frameType ≠ wfbFrameTypeRts) :=
    fun hno => h.frameType.elim hno.1 hno.2
  have hlen : ¬ (cfg.iface.utf8ByteSize = 0 ∨ cfg.iface.utf8ByteSize ≥ ifnamsiz) := by
    have hne : cfg.iface.utf8ByteSize ≠ 0 := by simpa using h.iface
    have hname := h.name
    omega
  have hsocket : (openPfpacketTxSocket cfg.iface).OpensTo fun n => .ok n := by
    refine ⟨_, .refl _, fun n => .call (.ok 0) ?_⟩
    simp only [if_neg hlen]
    exact .call (.ok 0) (.call (.ok 0) (.refl _))
  obtain ⟨k, hk, hdone⟩ := hsocket
  simp only [WfbTx.open, if_neg h.iface, if_neg h.stream, if_neg htype]
  refine ⟨_, hk.bind _, fun n => ((hdone n).bind _).trans ?_⟩
  have hbuild := (buildRadiotapHt_around n).mpr ⟨h.mcsIndex, h.bandwidth, rfl⟩
  simp only [Prog.done_bind, hbuild]
  exact .refl _

lemma callsTo_transmit {cfg : WfbTxConfig} {tx : WfbTx} (h : WfbTx.HeaderInv cfg tx)
    (sends : List (List UInt8 × UInt32)) :
    ∃ tx', tx'.fd = tx.fd ∧ (transmit tx sends).CallsTo (.done (.ok tx')) := by
  induction sends generalizing tx with
  | nil => exact ⟨tx, rfl, .refl _⟩
  | cons s rest ih =>
      obtain ⟨payload, seq⟩ := s
      have hsendmsg : (sendmsg payload).CallsTo (.done (.ok 0)) := by
        rw [sendmsg]
        split
        · exact .refl _
        · exact .call (.ok 0) (.refl _)
      obtain ⟨out, hsend, hinv, hfd⟩ := WfbTx.send_ok h payload seq (.ok 0)
      obtain ⟨tx', hfd', hrest⟩ := ih hinv
      refine ⟨tx', hfd'.trans hfd, (hsendmsg.bind _).trans ?_⟩
      simp only [Prog.done_bind, hsend]
      exact hrest

/-- `close` closes the socket and then drops the transmitter, which closes it again. -/
lemma TxLife.closesTwice {l : TxLife} (h : WfbTx.Accepts l.cfg) (hending : l.ending = .closed) :
    l.prog.ClosesTwice := by
  refine (WfbTx.opensTo_open h).closesTwice fun n => ?_
  obtain ⟨tx, hfd, hcalls⟩ := callsTo_transmit (WfbTx.opened_inv l.cfg n) l.sends
  have hn : tx.fd = n := hfd
  have hclose : TxEnding.closed.run tx = .release n (.release n (.done false)) := by
    rw [← hn]
    rfl
  refine ⟨.release n (.done false), (hcalls.bind _).trans ?_, .release⟩
  simp only [Prog.done_bind, hending, hclose]
  exact .refl _

/-! ### A process -/

namespace Life

/-- The life opens a descriptor when the system grants it. -/
def Opens : Life → Prop
  | rx l => l.Opens
  | tx l => l.Opens

/-- An open receiver is dropped, or an open transmitter is ended by `close`. -/
def ClosesTwice : Life → Prop
  | rx l => l.Opens ∧ l.ending ≠ .kept
  | tx l => WfbTx.Accepts l.cfg ∧ l.ending = .closed

lemma owns {l : Life} (h : ¬ l.ClosesTwice) : l.prog.Owns Tells none := by
  cases l with
  | rx l => exact RxLife.owns fun hopens => by_contra fun hending => h ⟨hopens, hending⟩
  | tx l => exact TxLife.owns fun hacc hending => h ⟨hacc, hending⟩

lemma closesTwice_prog {l : Life} (h : l.ClosesTwice) : l.prog.ClosesTwice := by
  cases l with
  | rx l => exact RxLife.closesTwice h.1 h.2
  | tx l => exact TxLife.closesTwice h.1 h.2

lemma opensAndCloses {l : Life} (h : l.Opens) : l.prog.OpensAndCloses := by
  cases l with
  | rx l => exact (WfbRx.opensAndCloses_open h.1 h.2).bind _
  | tx l => exact (WfbTx.opensAndCloses_open h.1 h.2.1 h.2.2).bind _

lemma prog_of_not_opens {l : Life} (h : ¬ l.Opens) : l.prog = .done false := by
  cases l with
  | rx l => exact RxLife.prog_of_not_opens h
  | tx l => exact TxLife.prog_of_not_opens h

end Life

variable {ι κ : Type} [DecidableEq ι]

/-- A process whose handles are about to be opened. -/
structure Starts (lives : ι → Life) (s : Sys SysError Bool ι κ) : Prop where
  initial : s.Initial
  procs : ∀ i, s.procs i = (lives i).prog

/-- A handle that opens a descriptor closes its own in every run exactly when no handle of the
process closes twice. -/
lemma closesOwn_iff (lives : ι → Life) (i : ι) :
    (∀ s s' : Sys SysError Bool ι κ, Starts lives s → Reach s s' → ClosesOwn s' i) ↔
      ((lives i).Opens → ∀ j, ¬ (lives j).ClosesTwice) := by
  constructor
  · intro h hopens j htwice
    obtain ⟨s, hreach, hnot⟩ := exists_not_closesOwn (κ := κ) (fun i => (lives i).prog)
      (Life.opensAndCloses hopens) (Life.closesTwice_prog htwice)
    exact hnot (h _ s ⟨Sys.start_initial _, fun _ => rfl⟩ hreach)
  · intro h s s' hs hreach
    by_cases hopens : (lives i).Opens
    · refine hreach.closesOwn hs.initial (fun j => ?_) i
      rw [hs.procs j]
      exact Life.owns (h hopens j)
    · refine hreach.closesOwn_of_done hs.initial (b := false) ?_
      rw [hs.procs i]
      exact Life.prog_of_not_opens hopens

/-- A handle that closes twice closes the descriptor of a component that opens one in between. -/
lemma Life.closes_other {l : Life} (h : l.ClosesTwice) : ∃ s : Sys SysError Bool Unit Unit,
    Reach (Sys.start fun _ => l.prog) s ∧ ¬ ClosesOwn s () ∧
      ∃ c ∈ s.closes, c.closer = () ∧ c.owner = some (.inr ()) := by
  obtain ⟨s, hreach, c, hc, hcloser, howner⟩ :=
    exists_closes_other (i := ()) (fun _ => l.prog) (Life.closesTwice_prog h) ()
  refine ⟨s, hreach, fun hown => ?_, c, hc, hcloser, howner⟩
  have howned := hown.owned c hc hcloser
  rw [Close.Owned, howner] at howned
  cases howned

/-- **Receivers.** The receivers of a process close only what is their own, once for each capture
opened, in every run with any other components, exactly when no open receiver is dropped and,
where one is opened, no open transmitter is ended by `close`. -/
theorem rx_closesOwn_iff (lives : ι → Life) :
    (∀ s s' : Sys SysError Bool ι κ, Starts lives s → Reach s s' →
        ∀ i l, lives i = .rx l → ClosesOwn s' i) ↔
      ∀ i l, lives i = .rx l → l.Opens → l.ending = .kept ∧
        ∀ j m, lives j = .tx m → WfbTx.Accepts m.cfg → m.ending ≠ .closed := by
  constructor
  · intro h i l hl hopens
    have hsafe := (closesOwn_iff (κ := κ) lives i).mp
      (fun s s' hs hreach => h s s' hs hreach i l hl) (by rw [hl]; exact hopens)
    constructor
    · by_contra hending
      exact hsafe i (by rw [hl]; exact ⟨hopens, hending⟩)
    · intro j m hm hacc hending
      exact hsafe j (by rw [hm]; exact ⟨hacc, hending⟩)
  · intro h s s' hs hreach i l hl
    refine (closesOwn_iff lives i).mpr ?_ s s' hs hreach
    intro hopens j htwice
    rw [hl] at hopens
    -- a receiver that closes twice is itself an open one
    cases hj : lives j with
    | rx m =>
        rw [hj] at htwice
        exact htwice.2 (h j m hj htwice.1).1
    | tx m =>
        rw [hj] at htwice
        exact (h i l hl hopens).2 j m hj htwice.1 htwice.2

/-- The receiver of stream 1 on `wlan0`, opened and dropped. -/
def droppedRx : Life := .rx ⟨WfbRx.wlan0, ⟨[], [], []⟩, [], .dropped⟩

theorem droppedRx_closes_other : ∃ s : Sys SysError Bool Unit Unit,
    Reach (Sys.start fun _ => droppedRx.prog) s ∧ ¬ ClosesOwn s () ∧
      ∃ c ∈ s.closes, c.closer = () ∧ c.owner = some (.inr ()) :=
  Life.closes_other ⟨⟨by decide, by decide⟩, by decide⟩

/-- **Transmitters.** The transmitters of a process close only what is their own, once for each
socket opened, in every run with any other components, exactly when no open transmitter is
ended by `close` and, where one opens a socket, no open receiver is dropped. -/
theorem tx_closesOwn_iff (lives : ι → Life) :
    (∀ s s' : Sys SysError Bool ι κ, Starts lives s → Reach s s' →
        ∀ i l, lives i = .tx l → ClosesOwn s' i) ↔
      ∀ i l, lives i = .tx l → l.Opens → (WfbTx.Accepts l.cfg → l.ending ≠ .closed) ∧
        ∀ j m, lives j = .rx m → m.Opens → m.ending = .kept := by
  constructor
  · intro h i l hl hopens
    have hsafe := (closesOwn_iff (κ := κ) lives i).mp
      (fun s s' hs hreach => h s s' hs hreach i l hl) (by rw [hl]; exact hopens)
    constructor
    · intro hacc hending
      exact hsafe i (by rw [hl]; exact ⟨hacc, hending⟩)
    · intro j m hm hopens'
      by_contra hending
      exact hsafe j (by rw [hm]; exact ⟨hopens', hending⟩)
  · intro h s s' hs hreach i l hl
    refine (closesOwn_iff lives i).mpr ?_ s s' hs hreach
    intro hopens j htwice
    rw [hl] at hopens
    cases hj : lives j with
    | rx m =>
        rw [hj] at htwice
        exact htwice.2 ((h i l hl hopens).2 j m hj htwice.1)
    | tx m =>
        rw [hj] at htwice
        obtain ⟨hacc, hending⟩ := htwice
        exact (h j m hj ⟨hacc.iface, hacc.stream, hacc.frameType⟩).1 hacc hending

/-- A transmitter on `wlan0`, opened and ended by `close`. -/
def closedTx : Life := .tx ⟨⟨"wlan0", 1, wfbFrameTypeData, 0, 0⟩, [], .closed⟩

theorem closedTx_closes_other : ∃ s : Sys SysError Bool Unit Unit,
    Reach (Sys.start fun _ => closedTx.prog) s ∧ ¬ ClosesOwn s () ∧
      ∃ c ∈ s.closes, c.closer = () ∧ c.owner = some (.inr ()) :=
  Life.closes_other ⟨⟨by decide, by decide, .inl rfl, by decide, by decide, .inl rfl⟩, rfl⟩

end WfbRs
