import WfbRs.Delivery
import WfbRs.Rx.Promptness
import WfbRs.Examples.StreamId

/-!
# A measurement from one program to another (`examples/bandwidth.rs`)

One program sends frames of one size as fast as it can, another one counts what it receives, and
both report what they have counted since their last report and in total.  The counts of the two
differ by the frames that are still on their way.  The rates that are printed, in floating point,
and the pause between two frames are left out.
-/

namespace WfbRs

open Rust Descriptor PcapFilter

namespace Examples

namespace Bandwidth

/-! ### Counting -/

/-- The counters of the two loops. -/
structure Tally where
  bytesInterval : ℕ
  packetsInterval : ℕ
  bytesTotal : ℕ
  packetsTotal : ℕ

/-- A packet of `n` bytes; the counters are of type `u64`. -/
def Tally.count (t : Tally) (n : ℕ) : Checked Tally := do
  let bytesInterval ← uadd t.bytesInterval n
  let packetsInterval ← uadd t.packetsInterval 1
  let bytesTotal ← uadd t.bytesTotal n
  let packetsTotal ← uadd t.packetsTotal 1
  return ⟨bytesInterval, packetsInterval, bytesTotal, packetsTotal⟩

/-- A report: the arguments of `report_line`, and the totals in the line behind it. -/
structure Report where
  bytes : ℕ
  packets : ℕ
  dt : ℕ
  bytesTotal : ℕ
  packetsTotal : ℕ

/-- `report_line` prints nothing for no time at all. -/
def Report.Printed (r : Report) : Prop := 0 < r.dt

/-- What the loops keep for their reports. -/
structure Meter where
  last : ℕ
  tally : Tally
  reports : List Report

/-- A report, with the readings of the clock that it leaves; nothing when they have run out. -/
def Meter.report (m : Meter) : List ℕ → Option (Meter × List ℕ)
  | now :: last :: clock =>
      some (⟨last, { m.tally with bytesInterval := 0, packetsInterval := 0 }, m.reports ++
        [⟨m.tally.bytesInterval, m.tally.packetsInterval, now - m.last, m.tally.bytesTotal,
          m.tally.packetsTotal⟩]⟩, clock)
  | _ => none

/-- The end of a round. -/
def Meter.tick (reportEvery : ℕ) (m : Meter) : List ℕ → Option (Meter × List ℕ)
  | now :: clock => if now - m.last ≥ reportEvery then m.report clock else some (m, clock)
  | [] => none

/-- The counters of a program that starts. -/
def Meter.start (last : ℕ) : Meter := ⟨last, ⟨0, 0, 0, 0⟩, []⟩

/-! ### The two programs -/

inductive FrameMode
  | data
  | rts
deriving DecidableEq

def FrameMode.frameType : FrameMode → UInt8
  | .data => wfbFrameTypeData
  | .rts => wfbFrameTypeRts

structure Args where
  iface : String
  streamId : UInt32
  frameMode : FrameMode
  payloadSize : ℕ
  reportMs : ℕ

def Args.txConfig (args : Args) : WfbTxConfig :=
  ⟨args.iface, args.streamId, args.frameMode.frameType, 7, 20⟩

def Args.rxConfig (args : Args) : WfbRxConfig := ⟨args.iface, args.streamId, true, 256⟩

def Args.payload (args : Args) : List UInt8 := List.replicate (max args.payloadSize 1) 0x42

def Args.reportEvery (args : Args) : ℕ := fromMillis (max args.reportMs 100)

/-- Why a program is not in its loop any more. -/
inductive Stop
  /-- The observation has ended. -/
  | running
  | failed (e : WfbError)

/-- The variables of the loop of `run_tx`, and what it has put on the air. -/
structure TxLoop where
  tx : WfbTx
  seq : UInt32
  meter : Meter
  clock : List ℕ
  emitted : List (Emission Unit)

/-- A round of `run_tx`, given the answers of `sendmsg`. -/
def txRound (args : Args) (answers : ℕ → Except SysError ℤ) (i : ℕ) (s : TxLoop) :
    Checked (Flow TxLoop (TxLoop × Stop)) := do
  let out ← WfbTx.send s.tx args.payload s.seq (answers i)
  match out.result with
  | .error e => return .ret ({ s with tx := out.tx }, .failed e)
  | .ok _ =>
      let tally ← s.meter.tally.count args.payload.length
      let s : TxLoop := ⟨out.tx, s.seq + 1, { s.meter with tally := tally }, s.clock,
        s.emitted ++ (emission ⟨(), args.payload, s.seq, answers i⟩ out).toList⟩
      match s.meter.tick args.reportEvery s.clock with
      | none => return .ret (s, .running)
      | some (meter, clock) => return .next { s with meter := meter, clock := clock }

/-- `run_tx` behind `open`, for a number of rounds. -/
def runTx (args : Args) (tx : WfbTx) (answers : ℕ → Except SysError ℤ) (rounds last : ℕ)
    (clock : List ℕ) : Checked (TxLoop ⊕ (TxLoop × Stop)) :=
  forRange (txRound args answers) 0 rounds ⟨tx, 1, .start last, clock, []⟩

/-- The variables of the loop of `run_rx`. -/
structure RxLoop where
  rx : WfbRx
  buf : List UInt8
  meter : Meter
  world : World

/-- The counters behind what `recv` has returned. -/
def Tally.received (t : Tally) : Option (ℕ × WfbRxMeta) → Checked Tally
  | some (n, _) => t.count n
  | none => return t

/-- A round of `run_rx`. -/
def rxRound (args : Args) (s : RxLoop) : Checked (Flow RxLoop (RxLoop × Stop)) := do
  let out ← WfbRx.recv s.rx s.buf (fromMillis 200) s.world
  let s : RxLoop := ⟨out.rx, out.buf, s.meter, out.world⟩
  match out.result with
  | none => return .ret (s, .running)
  | some (.error e) => return .ret (s, .failed e)
  | some (.ok received) =>
      let tally ← s.meter.tally.received received
      let s : RxLoop := { s with meter := { s.meter with tally := tally } }
      match s.meter.tick args.reportEvery s.world.clock with
      | none => return .ret (s, .running)
      | some (meter, clock) =>
          return .next { s with meter := meter, world := { s.world with clock := clock } }

/-- `run_rx` behind `open`, for a number of rounds. -/
def runRx (args : Args) (rx : WfbRx) (rounds last : ℕ) (world : World) :
    Checked (RxLoop ⊕ (RxLoop × Stop)) :=
  forRange (fun _ => rxRound args) 0 rounds
    ⟨rx, List.replicate (max args.payloadSize 4096) 0, .start last, world⟩

/-! ### What is reported -/

/-- What the reports of a meter say of each other and of its counters. -/
structure Meter.Balanced (reportEvery : ℕ) (m : Meter) : Prop where
  /-- Every packet is in one report, or will be in the next one. -/
  bytes : (m.reports.map Report.bytes).sum + m.tally.bytesInterval = m.tally.bytesTotal
  packets : (m.reports.map Report.packets).sum + m.tally.packetsInterval = m.tally.packetsTotal
  /-- The totals of a report are the sums of the reports up to it. -/
  totals : ∀ front r back, m.reports = front ++ r :: back →
    r.bytesTotal = (front.map Report.bytes).sum + r.bytes ∧
      r.packetsTotal = (front.map Report.packets).sum + r.packets
  /-- A report covers the time between two reports at least. -/
  slow : ∀ r ∈ m.reports, reportEvery ≤ r.dt

variable {reportEvery : ℕ} {m : Meter}

lemma Meter.balanced_start (last : ℕ) : (Meter.start last).Balanced reportEvery where
  bytes := rfl
  packets := rfl
  totals := by simp [Meter.start]
  slow := by simp [Meter.start]

/-- The counters behind a packet of `n` bytes. -/
def Tally.counted (t : Tally) (n : ℕ) : Tally :=
  ⟨t.bytesInterval + n, t.packetsInterval + 1, t.bytesTotal + n, t.packetsTotal + 1⟩

/-- Counters that have not come to their end count on. -/
lemma Tally.count_ok {t : Tally} {n : ℕ} (hbytes : t.bytesTotal + n < 2 ^ 64)
    (hpackets : t.packetsTotal + 1 < 2 ^ 64) (hle : t.bytesInterval ≤ t.bytesTotal)
    (hle' : t.packetsInterval ≤ t.packetsTotal) : t.count n = .ok (t.counted n) := by
  rw [Tally.count, uadd_ok (lt_usizeBound (by omega)), ok_bind,
    uadd_ok (lt_usizeBound (by omega)), ok_bind, uadd_ok (lt_usizeBound hbytes), ok_bind,
    uadd_ok (lt_usizeBound hpackets), ok_bind, pure_eq_ok, Tally.counted]

lemma Meter.Balanced.count (h : m.Balanced reportEvery) (n : ℕ) :
    Meter.Balanced reportEvery { m with tally := m.tally.counted n } where
  bytes := by
    have hbytes := h.bytes
    simp only [Tally.counted]
    omega
  packets := by
    have hpackets := h.packets
    simp only [Tally.counted]
    omega
  totals := h.totals
  slow := h.slow

/-- A report that is due keeps the meter balanced. -/
lemma Meter.Balanced.report (h : m.Balanced reportEvery) {now : ℕ}
    (hnow : m.last + reportEvery ≤ now) (last : ℕ) :
    Meter.Balanced reportEvery ⟨last, { m.tally with bytesInterval := 0, packetsInterval := 0 },
      m.reports ++ [⟨m.tally.bytesInterval, m.tally.packetsInterval, now - m.last,
        m.tally.bytesTotal, m.tally.packetsTotal⟩]⟩ where
  bytes := by simpa using h.bytes
  packets := by simpa using h.packets
  totals := by
    intro front r back heq
    -- the report is one of the earlier ones, or the new one
    rcases List.eq_nil_or_concat back with rfl | ⟨back, r', rfl⟩
    · obtain ⟨rfl, hr⟩ := List.append_inj' heq rfl
      obtain rfl := List.singleton_inj.mp hr
      exact ⟨h.bytes.symm, h.packets.symm⟩
    · rw [List.concat_eq_append, ← List.cons_append, ← List.append_assoc] at heq
      obtain ⟨heq, -⟩ := List.append_inj' heq rfl
      exact h.totals front r back heq
  slow := by
    intro r hr
    rcases List.mem_append.mp hr with hr | hr
    · exact h.slow r hr
    · rw [List.mem_singleton.mp hr]
      exact Nat.le_sub_of_add_le' hnow

/-- What the end of a round does: a report takes what was counted since the last one, and the
totals stay. -/
lemma Meter.tick_spec (h : m.Balanced reportEvery) (hevery : 0 < reportEvery) {clock clock' : List ℕ}
    {m' : Meter} (hclock : (m.last :: clock).Pairwise (· ≤ ·))
    (htick : m.tick reportEvery clock = some (m', clock')) :
    m'.Balanced reportEvery ∧ (m'.last :: clock').Pairwise (· ≤ ·) ∧
      m'.tally.bytesTotal = m.tally.bytesTotal ∧ m'.tally.packetsTotal = m.tally.packetsTotal := by
  rcases clock with _ | ⟨now, clock⟩
  · cases htick
  by_cases hdue : now - m.last ≥ reportEvery
  · rw [Meter.tick, if_pos hdue] at htick
    rcases clock with _ | ⟨now', _ | ⟨last, clock⟩⟩
    · cases htick
    · cases htick
    · obtain ⟨rfl, rfl⟩ := Prod.mk.inj (Option.some.inj htick)
      have hnow : now ≤ now' := by
        simp only [List.pairwise_cons, List.mem_cons, forall_eq_or_imp] at hclock
        exact hclock.2.1.1
      exact ⟨h.report (by omega) last, hclock.of_cons.of_cons.of_cons, rfl, rfl⟩
  · rw [Meter.tick, if_neg hdue] at htick
    obtain ⟨rfl, rfl⟩ := Prod.mk.inj (Option.some.inj htick)
    exact ⟨h, hclock.sublist (by simp), rfl, rfl⟩

/-- A report has no reading of the clock, or a second or third one is missing. -/
lemma Meter.tick_none {clock : List ℕ} (htick : m.tick reportEvery clock = none) :
    clock.length < 3 := by
  rcases clock with _ | ⟨now, _ | ⟨now', _ | ⟨last, clock⟩⟩⟩
  · exact Nat.zero_lt_succ 2
  · exact Nat.one_lt_succ_succ 1
  · exact Nat.lt_succ_self 2
  · rw [Meter.tick, Meter.report] at htick
    split_ifs at htick

/-! ### What `run_tx` counts -/

/-- After `n` packets: what was put on the air, and what the meter says of it. -/
structure Transmitted (args : Args) (n : ℕ) (s : TxLoop) : Prop where
  headers : WfbTx.HeaderInv args.txConfig s.tx
  seq : s.seq = UInt32.ofNat (n + 1)
  contents : s.emitted.map (fun e => e.call.content) =
    (List.range n).map fun i => (args.payload, UInt32.ofNat (i + 1), 0)
  wellFormed : ∀ e ∈ s.emitted, e.WellFormed fun _ => args.txConfig
  balanced : s.meter.Balanced args.reportEvery
  packets : s.meter.tally.packetsTotal = n
  bytes : s.meter.tally.bytesTotal = n * args.payload.length

variable {args : Args}

lemma reportEvery_pos (args : Args) : 0 < args.reportEvery := by
  have h : 100 ≤ max args.reportMs 100 := le_max_right _ _
  rw [Args.reportEvery, fromMillis]
  omega

/-- Counters of fewer packets than `bound` have room for one more. -/
lemma Meter.Balanced.count_ok (h : m.Balanced reportEvery) {n len bound : ℕ}
    (hpackets : m.tally.packetsTotal ≤ n) (hbytes : m.tally.bytesTotal ≤ n * computeMaxPayload)
    (hlen : len ≤ computeMaxPayload) (hn : n < bound) (hbound : bound * computeMaxPayload < 2 ^ 64) :
    m.tally.count len = .ok (m.tally.counted len) := by
  have hbalance := h.bytes
  have hbalance' := h.packets
  have hmax : computeMaxPayload = 4013 := rfl
  rw [hmax] at hbytes hlen hbound
  exact Tally.count_ok (by omega) (by omega) (by omega) (by omega)

/-- A `send` succeeds behind `n` others. -/
def Args.Accepted (args : Args) (answers : ℕ → Except SysError ℤ) (n : ℕ) : Prop :=
  args.payload.length ≤ computeMaxPayload ∧ (answers n).isOk

/-- Why `run_tx` has ended behind `n` packets. -/
def TxLoop.Stops (args : Args) (answers : ℕ → Except SysError ℤ) (n : ℕ) (s : TxLoop) : Stop → Prop
  | .running => s.clock.length < 3
  | .failed _ => ¬ args.Accepted answers n

/-- A round of `run_tx` sends one more packet and counts it, or ends the program. -/
lemma txRound_spec (answers : ℕ → Except SysError ℤ) {rounds i : ℕ} (hi : i < rounds)
    (hrounds : rounds * computeMaxPayload < 2 ^ 64) {s : TxLoop} (h : Transmitted args i s)
    (hclock : (s.meter.last :: s.clock).Pairwise (· ≤ ·)) :
    (∃ s', txRound args answers i s = .ok (.next s') ∧ Transmitted args (i + 1) s' ∧
      (s'.meter.last :: s'.clock).Pairwise (· ≤ ·)) ∨
    ∃ s' stop, txRound args answers i s = .ok (.ret (s', stop)) ∧ ∃ n ≤ rounds,
      Transmitted args n s' ∧ s'.Stops args answers n stop := by
  obtain ⟨out, hsend, hinv, hyes, -⟩ := @send_emission Unit (fun _ => args.txConfig) s.tx
    ⟨(), args.payload, s.seq, answers i⟩ h.headers
  have hok := send_ok_iff h.headers ⟨(), args.payload, s.seq, answers i⟩ hsend
  dsimp only at hsend
  by_cases hemits : SendCall.Emits ⟨(), args.payload, s.seq, answers i⟩
  swap
  · obtain ⟨e, herror⟩ : ∃ e, out.result = .error e := by
      cases hout : out.result with
      | error e => exact ⟨e, rfl⟩
      | ok u => exact absurd (hok.mp hout) hemits
    refine .inr ⟨{ s with tx := out.tx }, .failed e, ?_, i, hi.le, { h with headers := hinv },
      hemits⟩
    simp only [txRound, hsend, ok_bind, herror, pure_eq_ok]
  obtain ⟨e, he, hecall, hewf⟩ := hyes hemits
  have hcount := h.balanced.count_ok h.packets.le
    (h.bytes.le.trans (Nat.mul_le_mul_left i hemits.1)) hemits.1 hi hrounds
  -- the packet is on the air and counted
  obtain ⟨s₁, hs₁⟩ : ∃ s₁ : TxLoop, s₁ = ⟨out.tx, s.seq + 1, { s.meter with
      tally := s.meter.tally.counted args.payload.length }, s.clock, s.emitted ++ [e]⟩ := ⟨_, rfl⟩
  have hsent : Transmitted args (i + 1) s₁ := by
    subst hs₁
    exact
      { headers := hinv
        seq := by rw [h.seq, UInt32.ofNat_add (i + 1)]; rfl
        contents := by
          rw [List.map_append, h.contents, List.range_succ, List.map_append, List.map_singleton,
            hecall, SendCall.content, h.seq]
          rfl
        wellFormed := by
          intro e' he'
          rcases List.mem_append.mp he' with he' | he'
          · exact h.wellFormed e' he'
          · exact List.mem_singleton.mp he' ▸ hewf
        balanced := h.balanced.count _
        packets := congrArg (· + 1) h.packets
        bytes := by
          rw [Nat.succ_mul, ← h.bytes]
          rfl }
  have hround : txRound args answers i s = match s₁.meter.tick args.reportEvery s₁.clock with
      | none => .ok (.ret (s₁, .running))
      | some (meter, clock) => .ok (.next { s₁ with meter := meter, clock := clock }) := by
    simp only [txRound, hsend, ok_bind, hok.mpr hemits, hcount, he, Option.toList_some, hs₁,
      pure_eq_ok]
  have hclock₁ : (s₁.meter.last :: s₁.clock).Pairwise (· ≤ ·) := by
    rw [hs₁]
    exact hclock
  cases htick : s₁.meter.tick args.reportEvery s₁.clock with
  | none =>
      rw [htick] at hround
      exact .inr ⟨s₁, .running, hround, i + 1, hi, hsent, Meter.tick_none htick⟩
  | some r =>
      obtain ⟨meter, clock⟩ := r
      rw [htick] at hround
      obtain ⟨hbalanced, hclock', hbytes, hpackets⟩ :=
        Meter.tick_spec hsent.balanced (reportEvery_pos args) hclock₁ htick
      exact .inl ⟨_, hround, { hsent with
        balanced := hbalanced
        packets := hpackets.trans hsent.packets
        bytes := hbytes.trans hsent.bytes }, hclock'⟩

lemma runTx_spec {tx : WfbTx} (htx : (WfbTx.open args.txConfig).Returns (.ok tx))
    (answers : ℕ → Except SysError ℤ) {rounds last : ℕ} {clock : List ℕ}
    (hclock : (last :: clock).Pairwise (· ≤ ·)) (hrounds : rounds * computeMaxPayload < 2 ^ 64) :
    ∃ out, runTx args tx answers rounds last clock = .ok out ∧ ∃ n ≤ rounds,
      Transmitted args n (out.elim id Prod.fst) ∧ (∀ s, out = .inl s → n = rounds) ∧
      ∀ s stop, out = .inr (s, stop) → s.Stops args answers n stop := by
  have hstart : Transmitted args 0 ⟨tx, 1, .start last, clock, []⟩ := by
    obtain ⟨-, fd, rfl⟩ := WfbTx.returns_open.mp htx
    exact ⟨WfbTx.opened_inv _ fd, rfl, rfl, by simp, Meter.balanced_start last, rfl, by
      simp [Meter.start]⟩
  obtain ⟨out, hout, hleft, hright⟩ := forRange_spec
    (fun i s => Transmitted args i s ∧ (s.meter.last :: s.clock).Pairwise (· ≤ ·))
    (fun r : TxLoop × Stop => ∃ n ≤ rounds, Transmitted args n r.1 ∧
      r.1.Stops args answers n r.2)
    (fun i hi s hs => by
      rcases txRound_spec answers hi hrounds hs.1 hs.2 with ⟨s', h, hs'⟩ | ⟨s', stop, h, hs'⟩
      · exact .inl ⟨s', h, hs'⟩
      · exact .inr ⟨(s', stop), h, hs'⟩) (Nat.zero_add rounds) ⟨hstart, hclock⟩
  refine ⟨out, hout, ?_⟩
  cases out with
  | inl s => exact ⟨rounds, le_rfl, (hleft s rfl).1, fun _ _ => rfl, nofun⟩
  | inr r =>
      obtain ⟨n, hn, hsent, hstop⟩ := hright r rfl
      refine ⟨n, hn, hsent, nofun, ?_⟩
      intro s stop h
      obtain rfl := Sum.inr.inj h
      exact hstop

/-- A payload that was sent. -/
lemma Transmitted.payload_eq {n : ℕ} {s : TxLoop} (h : Transmitted args n s) :
    ∀ e ∈ s.emitted, e.call.content.1 = args.payload := by
  intro e he
  have hmem : e.call.content ∈ s.emitted.map fun e => e.call.content := List.mem_map_of_mem he
  rw [h.contents] at hmem
  obtain ⟨i, -, hi⟩ := List.mem_map.mp hmem
  rw [← hi]

lemma Transmitted.length {n : ℕ} {s : TxLoop} (h : Transmitted args n s) : s.emitted.length = n := by
  have hlength := congrArg List.length h.contents
  rwa [List.length_map, List.length_map, List.length_range] at hlength

/-! ### What `run_rx` counts -/

/-- After `n` rounds: the frames that were taken of those that the drains have kept, and what the
meter says of them. -/
structure Counted (args : Args) (rx : WfbRx) (world : World) (n : ℕ) (taken : List Frame)
    (drained : List (List CapturedPacket)) (s : RxLoop) : Prop where
  inv : WfbRx.RingInv s.rx
  config : WfbRx.SameConfig rx s.rx
  buf : s.buf.length = max args.payloadSize 4096
  captures : world.captures = drained ++ s.world.captures
  frames : taken ++ s.rx.queue = drained.flatMap rx.kept
  balanced : s.meter.Balanced args.reportEvery
  rounds : taken.length ≤ n
  packets : s.meter.tally.packetsTotal = taken.length
  bytes : s.meter.tally.bytesTotal = (taken.map fun f => f.payload.length).sum

variable {rx : WfbRx} {world : World} {n : ℕ} {taken : List Frame}
  {drained : List (List CapturedPacket)} {s : RxLoop}

/-- The frames that were taken fit a slot. -/
lemma Counted.length_le (h : Counted args rx world n taken drained s) :
    ∀ f ∈ taken, f.payload.length ≤ rx.maxPayload := by
  intro f hf
  have hmem := List.mem_append_left s.rx.queue hf
  rw [h.frames] at hmem
  obtain ⟨d, -, hd⟩ := List.mem_flatMap.mp hmem
  exact WfbRx.length_of_kept hd

lemma Counted.bytes_le (h : Counted args rx world n taken drained s) (hinv : rx.RingInv) :
    s.meter.tally.bytesTotal ≤ taken.length * computeMaxPayload := by
  rw [h.bytes, ← hinv.max_eq, ← smul_eq_mul, ← List.length_map (fun f => f.payload.length)]
  refine List.sum_le_card_nsmul _ _ fun n hn => ?_
  obtain ⟨f, hf, rfl⟩ := List.mem_map.mp hn
  exact h.length_le f hf

/-- The counters behind a call. -/
def Meter.behind (m : Meter) : Option Frame → Meter
  | none => m
  | some f => { m with tally := m.tally.counted f.payload.length }

/-- A call of `recv` takes at most one more frame. -/
lemma Counted.recv (h : Counted args rx world n taken drained s) {out : RecvOut} {f : Option Frame}
    (hspec : WfbRx.RecvSpec s.rx s.buf s.world out)
    (hanswer : WfbRx.Answer s.rx s.buf s.world out f)
    (hframes : f.toList ++ out.rx.queue =
      s.rx.queue ++ out.drained.flatMap fun d => s.rx.kept d.batch) :
    Counted args rx world (n + 1) (taken ++ f.toList) (drained ++ out.drained.map Drain.batch)
      ⟨out.rx, out.buf, s.meter.behind f, out.world⟩ where
  inv := hspec.inv
  config := h.config.trans hspec.config
  buf := by rw [← h.buf, hanswer.length_buf]
  captures := by rw [h.captures, hspec.captures, List.append_assoc]
  frames := by
    rw [List.append_assoc, hframes, ← List.append_assoc, h.frames, List.flatMap_append,
      List.flatMap_map, h.config.kept]
  balanced := by
    cases f with
    | none => exact h.balanced
    | some f => exact h.balanced.count _
  rounds := by
    have hrounds := h.rounds
    cases f <;> simp <;> omega
  packets := by
    have hpackets := h.packets
    cases f <;> simp [Meter.behind, Tally.counted, hpackets]
  bytes := by
    have hbytes := h.bytes
    cases f <;> simp [Meter.behind, Tally.counted, hbytes]

/-- Why `run_rx` has ended: an error of `poll`, or the world is at its end. -/
def RxLoop.Stops (s : RxLoop) : Stop → Prop
  | .running => s.world.clock.length < 3 ∨ s.world.polls = [] ∨ s.world.captures = []
  | .failed e => ∃ errno, e = .io errno

/-- What a round of `run_rx` leads to. -/
def RxLoop.Goes (args : Args) (s s' : RxLoop) : Prop :=
  (rxRound args s = .ok (.next s') ∧ (s'.meter.last :: s'.world.clock).Pairwise (· ≤ ·)) ∨
    ∃ stop, rxRound args s = .ok (.ret (s', stop)) ∧ s'.Stops stop

/-- A round of `run_rx` takes and counts at most one more frame, or ends the program.  It takes one
if its call is attended and there is one. -/
lemma rxRound_spec (hrx : rx.RingInv) (h : Counted args rx world n taken drained s) {rounds : ℕ}
    (hn : n < rounds) (hrounds : rounds * computeMaxPayload < 2 ^ 64)
    (hclock : (s.meter.last :: s.world.clock).Pairwise (· ≤ ·)) :
    ∃ (f : Option Frame) (drained' : _) (s' : _),
      Counted args rx world (n + 1) (taken ++ f.toList) drained' s' ∧ s.Goes args s' ∧
      (s.rx.Attended (fromMillis 200) none s.world → s.rx.ahead s.world ≠ [] → f.isSome) := by
  obtain ⟨out, hout, hspec⟩ := WfbRx.recv_spec h.inv s.buf (fromMillis 200) s.world
  obtain ⟨f, hanswer, hframes⟩ := hspec.frames
  have hcounted := h.recv hspec hanswer hframes
  have hclock' : ((s.meter.behind f).last :: out.world.clock).Pairwise (· ≤ ·) := by
    have hlast : (s.meter.behind f).last = s.meter.last := by cases f <;> rfl
    rw [hlast]
    exact hclock.sublist ((WfbRx.recv_suffix h.inv hout).sublist.cons_cons _)
  have hbuf : s.buf ≠ [] := by
    have hmax := le_max_right args.payloadSize 4096
    rw [← List.length_pos_iff, h.buf]
    omega
  have htakes : s.rx.Attended (fromMillis 200) none s.world → s.rx.ahead s.world ≠ [] →
      f.isSome := by
    intro hatt hahead
    obtain ⟨out', hout', hframe, -⟩ := WfbRx.recv_attended hatt h.inv hbuf le_rfl hahead
    obtain rfl := Except.ok.inj (hout'.symm.trans hout)
    exact hanswer.isSome hframe
  -- behind a frame and behind a timeout comes the report
  have hgo : ∀ received, out.result = some (.ok received) →
      s.meter.tally.received received = .ok (s.meter.behind f).tally →
      ∃ drained' s', Counted args rx world (n + 1) (taken ++ f.toList) drained' s' ∧
        s.Goes args s' := by
    intro received hresult htally
    have hmeter : { s.meter with tally := (s.meter.behind f).tally } = s.meter.behind f := by
      cases f <;> rfl
    have hround : rxRound args s =
        match (s.meter.behind f).tick args.reportEvery out.world.clock with
        | none => .ok (.ret (⟨out.rx, out.buf, s.meter.behind f, out.world⟩, .running))
        | some (meter, clock) =>
            .ok (.next ⟨out.rx, out.buf, meter, { out.world with clock := clock }⟩) := by
      simp only [rxRound, hout, ok_bind, hresult, htally, hmeter, pure_eq_ok]
    cases htick : (s.meter.behind f).tick args.reportEvery out.world.clock with
    | none =>
        exact ⟨_, _, hcounted, .inr ⟨.running, by rw [hround, htick], .inl (Meter.tick_none htick)⟩⟩
    | some r =>
        obtain ⟨meter, clock⟩ := r
        obtain ⟨hbalanced, hsorted, hbytes, hpackets⟩ :=
          Meter.tick_spec hcounted.balanced (reportEvery_pos args) hclock' htick
        refine ⟨_, ⟨out.rx, out.buf, meter, { out.world with clock := clock }⟩,
          { hcounted with
            balanced := hbalanced
            packets := hpackets.trans hcounted.packets
            bytes := hbytes.trans hcounted.bytes }, .inl ⟨by rw [hround, htick], hsorted⟩⟩
  obtain ⟨drained', s', hs', hgoes⟩ : ∃ drained' s',
      Counted args rx world (n + 1) (taken ++ f.toList) drained' s' ∧ s.Goes args s' := by
    cases hanswer with
    | frame f hresult =>
        have hfits : f.payload.length ≤ computeMaxPayload := by
          rw [← hrx.max_eq]
          exact hcounted.length_le f (by simp)
        have hmin : min f.payload.length s.buf.length = f.payload.length := by
          rw [h.buf]
          have hmax : computeMaxPayload = 4013 := rfl
          omega
        refine hgo _ hresult ?_
        rw [hmin]
        exact h.balanced.count_ok (h.packets.le.trans h.rounds)
          ((h.bytes_le hrx).trans (Nat.mul_le_mul_right _ h.rounds)) hfits hn hrounds
    | timeout hresult => exact hgo _ hresult rfl
    | failed errno hresult =>
        exact ⟨_, _, hcounted, .inr ⟨.failed (.io errno), by
          simp only [rxRound, hout, ok_bind, hresult, pure_eq_ok]; rfl, errno, rfl⟩⟩
    | rejected hempty => exact absurd hempty hbuf
    | running hresult =>
        refine ⟨_, _, hcounted, .inr ⟨.running, by
          simp only [rxRound, hout, ok_bind, hresult, pure_eq_ok]; rfl, ?_⟩⟩
        exact (WfbRx.recv_exhausted h.inv hout hresult).imp_left fun hend => by simp [hend]
  exact ⟨f, drained', s', hs', hgoes, htakes⟩

lemma Counted.mono (h : Counted args rx world n taken drained s) {n' : ℕ} (hn : n ≤ n') :
    Counted args rx world n' taken drained s := { h with rounds := h.rounds.trans hn }

lemma runRx_spec (hrx : (WfbRx.open args.rxConfig).Returns (.ok rx)) {rounds last : ℕ}
    (hclock : (last :: world.clock).Pairwise (· ≤ ·))
    (hrounds : rounds * computeMaxPayload < 2 ^ 64) :
    ∃ out, runRx args rx rounds last world = .ok out ∧ ∃ taken drained,
      Counted args rx world rounds taken drained (out.elim id Prod.fst) ∧
      (∀ s stop, out = .inr (s, stop) → s.Stops stop) ∧
      (0 < rounds → rx.Attended (fromMillis 200) none world → rx.ahead world ≠ [] →
        taken ≠ []) := by
  obtain ⟨hinv, hqueue⟩ := WfbRx.opened_inv hrx
  obtain ⟨s₀, hs₀⟩ : ∃ s₀ : RxLoop, s₀ =
      ⟨rx, List.replicate (max args.payloadSize 4096) 0, .start last, world⟩ := ⟨_, rfl⟩
  have hstart : Counted args rx world 0 [] [] s₀ := by
    subst hs₀
    exact ⟨hinv, WfbRx.SameConfig.refl rx, List.length_replicate, rfl, hqueue,
      Meter.balanced_start last, le_rfl, rfl, rfl⟩
  obtain ⟨out, hout, hleft, hright⟩ := forRange_spec
    (fun i s => ∃ taken drained, Counted args rx world i taken drained s ∧
      (s.meter.last :: s.world.clock).Pairwise (· ≤ ·) ∧ (i = 0 → s = s₀) ∧
      (0 < i → rx.Attended (fromMillis 200) none world → rx.ahead world ≠ [] → taken ≠ []))
    (fun r : RxLoop × Stop => ∃ taken drained, Counted args rx world rounds taken drained r.1 ∧
      r.1.Stops r.2 ∧
      (rx.Attended (fromMillis 200) none world → rx.ahead world ≠ [] → taken ≠ []))
    (fun i hi s hs => by
      obtain ⟨taken, drained, hs, hsorted, hfirst, hlater⟩ := hs
      obtain ⟨f, drained', s', hs', hgoes, htakes⟩ := rxRound_spec hinv hs hi hrounds hsorted
      -- the first round takes a frame, or there was none
      have htaken : rx.Attended (fromMillis 200) none world → rx.ahead world ≠ [] →
          taken ++ f.toList ≠ [] := by
        intro hatt hahead
        rcases Nat.eq_zero_or_pos i with hzero | hpos
        · obtain rfl := (hfirst hzero).trans hs₀
          obtain ⟨g, rfl⟩ := Option.isSome_iff_exists.mp (htakes hatt hahead)
          exact List.append_ne_nil_of_right_ne_nil _ (List.cons_ne_nil _ _)
        · exact List.append_ne_nil_of_left_ne_nil (hlater hpos hatt hahead) _
      rcases hgoes with ⟨hnext, hsorted'⟩ | ⟨stop, hret, hstops⟩
      · exact .inl ⟨s', hnext, _, drained', hs', hsorted',
          fun hzero => absurd hzero (Nat.succ_ne_zero i), fun _ => htaken⟩
      · exact .inr ⟨(s', stop), hret, _, drained', hs'.mono hi, hstops, htaken⟩)
    (Nat.zero_add rounds) ⟨[], [], hstart, by rw [hs₀]; exact hclock, fun _ => rfl,
      fun hpos => absurd hpos (lt_irrefl 0)⟩
  refine ⟨out, by rw [runRx, ← hs₀]; exact hout, ?_⟩
  cases out with
  | inl s =>
      obtain ⟨taken, drained, hs, -, -, hlater⟩ := hleft s rfl
      exact ⟨taken, drained, hs, by simp, hlater⟩
  | inr r =>
      obtain ⟨taken, drained, hs, hstops, htaken⟩ := hright r rfl
      refine ⟨taken, drained, hs, ?_, fun _ => htaken⟩
      intro s stop heq
      obtain rfl := Sum.inr.inj heq
      exact hstops

/-- **Reports.** In every run of either program each packet that is sent or taken is in one report,
or will be in the next one; the totals of a report are the sums of the reports up to it; no report
is left unprinted, and none covers less than the time that was asked for.  The sending program
numbers its packets from 1 and ends with the first one that is refused; the receiving program ends
with an error of `poll`, and takes a frame if it is attended.  An observation ends early only at the
end of the world. -/
theorem run_reports {tx : WfbTx} (htx : (WfbTx.open args.txConfig).Returns (.ok tx))
    (hrx : (WfbRx.open args.rxConfig).Returns (.ok rx)) (answers : ℕ → Except SysError ℤ)
    {rounds last : ℕ} (hrounds : rounds * computeMaxPayload < 2 ^ 64) :
    (∀ clock : List ℕ, (last :: clock).Pairwise (· ≤ ·) →
      ∃ out t n, runTx args tx answers rounds last clock = .ok out ∧ t = out.elim id Prod.fst ∧
        t.emitted.map (fun e => e.call.content) =
          ((List.range n).map fun i => (args.payload, UInt32.ofNat (i + 1), 0)) ∧
        t.meter.tally.packetsTotal = n ∧ t.meter.tally.bytesTotal = n * args.payload.length ∧
        t.meter.Balanced args.reportEvery ∧ (∀ r ∈ t.meter.reports, r.Printed) ∧
        (∀ s, out = .inl s → n = rounds) ∧
        (∀ s e, out = .inr (s, .failed e) → ¬ args.Accepted answers n) ∧
        (∀ s, out = .inr (s, .running) → s.clock.length < 3) ∧
        (computeMaxPayload < args.payloadSize → n = 0)) ∧
    ∀ world : World, (last :: world.clock).Pairwise (· ≤ ·) →
      ∃ out r taken, runRx args rx rounds last world = .ok out ∧ r = out.elim id Prod.fst ∧
        (∃ drained, world.captures = drained ++ r.world.captures ∧
          taken ++ r.rx.queue = drained.flatMap rx.kept) ∧
        r.meter.tally.packetsTotal = taken.length ∧
        r.meter.tally.bytesTotal = (taken.map fun f => f.payload.length).sum ∧
        r.meter.Balanced args.reportEvery ∧ (∀ q ∈ r.meter.reports, q.Printed) ∧
        (∀ s e, out = .inr (s, .failed e) → ∃ errno, e = .io errno) ∧
        (∀ s, out = .inr (s, .running) →
          s.world.clock.length < 3 ∨ s.world.polls = [] ∨ s.world.captures = []) ∧
        (0 < rounds → rx.Attended (fromMillis 200) none world → rx.ahead world ≠ [] →
          taken ≠ []) := by
  have hprinted : ∀ m : Meter, m.Balanced args.reportEvery → ∀ r ∈ m.reports, r.Printed :=
    fun m hm r hr => (reportEvery_pos args).trans_le (hm.slow r hr)
  constructor
  · intro clock hclock
    obtain ⟨out, hout, n, -, ht, hall, hstop⟩ := runTx_spec htx answers hclock hrounds
    refine ⟨out, _, n, hout, rfl, ht.contents, ht.packets, ht.bytes, ht.balanced,
      hprinted _ ht.balanced, hall, fun s e => hstop s (.failed e), fun s => hstop s .running, ?_⟩
    intro hlarge
    by_contra hn
    obtain ⟨e, he⟩ := List.exists_mem_of_length_pos (ht.length ▸ Nat.pos_of_ne_zero hn)
    have hfits := (ht.wellFormed e he).fits
    have hlength := congrArg List.length (ht.payload_eq e he)
    rw [Args.payload, List.length_replicate] at hlength
    have hpayload : e.call.payload.length = max args.payloadSize 1 := hlength
    omega
  · intro world hclock
    obtain ⟨out, hout, taken, drained, hr, hstop, htaken⟩ := runRx_spec hrx hclock hrounds
    exact ⟨out, _, taken, hout, rfl, ⟨drained, hr.captures, hr.frames⟩, hr.packets, hr.bytes,
      hr.balanced, hprinted _ hr.balanced, fun s e => hstop s (.failed e),
      fun s => hstop s .running, htaken⟩

/-- Payloads of two bytes on stream 1, with a report each second. -/
def onWlan0 : Args := ⟨"wlan0", 1, .data, 2, 1000⟩

def txOnWlan0 : WfbTx := WfbTx.opened onWlan0.txConfig 3

def rxOnWlan0 : WfbRx := WfbRx.fresh onWlan0.rxConfig ⟨4, filterExp 1⟩

lemma opened_txOnWlan0 : (WfbTx.open onWlan0.txConfig).Returns (.ok txOnWlan0) :=
  WfbTx.returns_open.mpr ⟨⟨by decide, by decide, .inl rfl, by decide, by decide, .inr (.inl rfl)⟩,
    3, rfl⟩

lemma opened_rxOnWlan0 : (WfbRx.open onWlan0.rxConfig).Returns (.ok rxOnWlan0) :=
  WfbRx.returns_open.mpr ⟨by decide, by decide, 4, rfl⟩

/-- The first frame of the program. -/
def firstFrame : List UInt8 :=
  [8, 1, 0, 0, 255, 255, 255, 255, 255, 255, 0x57, 0x42, 0, 0, 0, 1, 0x57, 0x42, 0, 0, 0, 1,
    0, 0, 0, 0, 0, 0, 1, 0, 2, 0, 0x42, 0x42]

/-- What the receiver is handed out of it. -/
def firstBatch : List CapturedPacket :=
  [wholePacket (bareHeader ++ firstFrame) (by decide)].filter fun p =>
    eval rxOnWlan0.pcap.filterExp p.bytes

def firstWorld : World := ⟨[1, 2, 3, 4], [.ready], [firstBatch]⟩

/-- The first call finds it. -/
lemma attended_firstWorld : rxOnWlan0.Attended (fromMillis 200) none firstWorld := by
  have haccepted : rxOnWlan0.acceptedFrames firstBatch ≠ [] := by decide +kernel
  exact .starts (.accepted (by decide) haccepted .finished)

theorem onWlan0_reports : (∃ out t, runTx onWlan0 txOnWlan0 (fun _ => .ok 0) 2 0
      [5, 1000000005, 1000000006, 1000000007] = .ok out ∧ t = out.elim id Prod.fst ∧
      t.meter.reports = [⟨4, 2, 1000000006, 4, 2⟩] ∧ t.meter.tally.packetsTotal = 2 ∧
      t.meter.tally.bytesTotal = 4 ∧ t.meter.Balanced 1000000000) ∧
    ∃ out r, runRx onWlan0 rxOnWlan0 2 0 firstWorld = .ok out ∧ r = out.elim id Prod.fst ∧
      r.meter.tally.packetsTotal = 1 ∧ r.meter.tally.bytesTotal = 2 ∧ r.rx.queue = [] ∧
      r.meter.Balanced 1000000000 := by
  obtain ⟨hsends, hreceives⟩ := run_reports opened_txOnWlan0 opened_rxOnWlan0 (fun _ => .ok 0)
    (show 2 * computeMaxPayload < 2 ^ 64 by decide)
  constructor
  · obtain ⟨out, t, n, hout, ht, -, -, -, hbalanced, -⟩ :=
      hsends [5, 1000000005, 1000000006, 1000000007]
        (show [0, 5, 1000000005, 1000000006, 1000000007].Pairwise (· ≤ ·) by decide)
    have hrun : runTx onWlan0 txOnWlan0 (fun _ => .ok 0) 2 0
        [5, 1000000005, 1000000006, 1000000007] = .ok _ := rfl
    obtain rfl := Except.ok.inj (hout.symm.trans hrun)
    exact ⟨_, t, hout, ht, by rw [ht]; rfl, by rw [ht]; rfl, by rw [ht]; rfl, hbalanced⟩
  · have hkept : (rxOnWlan0.kept firstBatch).map (fun f => f.payload.length) = [2] := by
      decide +kernel
    have hone : (rxOnWlan0.kept firstBatch).length = 1 := by
      simpa using congrArg List.length hkept
    obtain ⟨out, r, taken, hout, hr, ⟨drained, hcaptures, hframes⟩, hpackets, hbytes, hbalanced, -,
      -, -, htaken⟩ := hreceives firstWorld (show [0, 1, 2, 3, 4].Pairwise (· ≤ ·) by decide)
    have hsome := List.length_pos_iff.mpr (htaken (by decide) attended_firstWorld
      (List.append_ne_nil_of_right_ne_nil _ (by simp [firstWorld, ← List.length_pos_iff, hone])))
    -- the batch is drained
    obtain rfl : drained = [firstBatch] := by
      rcases drained with _ | ⟨d, drained⟩
      · simp [List.append_eq_nil_iff.mp hframes] at hsome
      · obtain ⟨rfl, hnil⟩ := List.cons.inj hcaptures
        rw [(List.append_eq_nil_iff.mp hnil.symm).1]
    rw [List.flatMap_singleton] at hframes
    have hlength := congrArg List.length hframes
    rw [List.length_append, hone] at hlength
    have hqueue : r.rx.queue = [] := List.eq_nil_of_length_eq_zero (by omega)
    rw [hqueue, List.append_nil] at hframes
    refine ⟨out, r, hout, hr, by omega, ?_, hqueue, hbalanced⟩
    rw [hbytes, hframes, hkept]
    rfl

/-! ### From one program to the other -/

section Link

variable {a b : Args} {filter : String → List UInt8 → Bool} {batches : List (Batch Unit)}
  {t : TxLoop}

/-- What a batch has of the stream of another program. -/
lemma length_contents (batch : Batch Unit) :
    (batch.contents (fun _ => a.txConfig) b.streamId).length =
      if a.streamId = b.streamId then batch.emitted.length else 0 := by
  rw [Batch.contents, List.length_map]
  by_cases hsame : a.streamId = b.streamId <;> simp [Args.txConfig, hsame]

/-- The ring has 128 slots, whatever more the program asks for. -/
lemma ringSize_opened (hrx : (WfbRx.open b.rxConfig).Returns (.ok rx)) : rx.ringSize = 128 := by
  obtain ⟨-, -, fd, hfresh⟩ := WfbRx.returns_open.mp hrx
  rw [hfresh]
  rfl

/-- The frames that were taken and those that are queued, as what was sent. -/
lemma Counted.contents (h : Counted b rx world n taken drained s)
    (hrx : (WfbRx.open b.rxConfig).Returns (.ok rx)) (hfilter : Implements filter)
    (hair : ∀ batch ∈ batches, OnAir rx batch.emitted (batch.packets.map CapturedPacket.bytes))
    (hworld : world.captures = batches.map (Batch.handedOut filter rx)) {k : ℕ}
    (ht : Transmitted a k t) (hemitted : batches.flatMap Batch.emitted = t.emitted) :
    (taken ++ s.rx.queue).map Frame.content = (batches.take drained.length).flatMap fun batch =>
      (batch.contents (fun _ => a.txConfig) b.streamId).take 128 := by
  have hkept := kept_batches hrx hfilter hair (hemitted ▸ ht.wellFormed)
    (hworld.symm.trans h.captures)
  rw [ringSize_opened hrx] at hkept
  rw [h.frames, hkept]
  rfl

/-- The frames that were taken have the payload that was sent. -/
lemma Counted.payload_eq (h : Counted b rx world n taken drained s)
    (hrx : (WfbRx.open b.rxConfig).Returns (.ok rx)) (hfilter : Implements filter)
    (hair : ∀ batch ∈ batches, OnAir rx batch.emitted (batch.packets.map CapturedPacket.bytes))
    (hworld : world.captures = batches.map (Batch.handedOut filter rx)) {k : ℕ}
    (ht : Transmitted a k t) (hemitted : batches.flatMap Batch.emitted = t.emitted) :
    ∀ f ∈ taken, f.payload = a.payload := by
  intro f hf
  have hmem := List.mem_map_of_mem (f := Frame.content) (List.mem_append_left s.rx.queue hf)
  rw [h.contents hrx hfilter hair hworld ht hemitted] at hmem
  obtain ⟨batch, hbatch, hmem⟩ := List.mem_flatMap.mp hmem
  obtain ⟨e, he, heq⟩ := List.mem_map.mp (List.mem_of_mem_take hmem)
  have hsent : e ∈ t.emitted := hemitted ▸ List.mem_flatMap.mpr
    ⟨batch, List.mem_of_mem_take hbatch, (List.mem_filter.mp he).1⟩
  exact (congrArg Prod.fst heq).symm.trans (ht.payload_eq e hsent)

end Link

/-- **From one program to the other.** The receiving program counts the packets of its own stream
and nothing else: those in its total, those in the ring and those in the batches left are never more
than the sending program's total, and as many when no batch has more packets than the ring holds.
Every packet is counted with the size that it was sent with.  If the receiving program is attended
and there is a packet, it counts one. -/
theorem link_counts {a b : Args} {tx : WfbTx} {rx : WfbRx}
    (htx : (WfbTx.open a.txConfig).Returns (.ok tx)) (hrx : (WfbRx.open b.rxConfig).Returns (.ok rx))
    {filter : String → List UInt8 → Bool} (hfilter : Implements filter)
    (answers : ℕ → Except SysError ℤ) {rounds last : ℕ} {clock : List ℕ}
    (hclock : (last :: clock).Pairwise (· ≤ ·)) (hrounds : rounds * computeMaxPayload < 2 ^ 64) :
    ∃ out t, runTx a tx answers rounds last clock = .ok out ∧ t = out.elim id Prod.fst ∧
      t.meter.tally.bytesTotal = t.meter.tally.packetsTotal * a.payload.length ∧
      ∀ batches : List (Batch Unit), batches.flatMap Batch.emitted = t.emitted →
        (∀ batch ∈ batches, OnAir rx batch.emitted (batch.packets.map CapturedPacket.bytes)) →
      ∀ world : World, world.captures = batches.map (Batch.handedOut filter rx) →
      ∀ rounds' last' : ℕ, (last' :: world.clock).Pairwise (· ≤ ·) →
        rounds' * computeMaxPayload < 2 ^ 64 →
        ∃ out' r k, runRx b rx rounds' last' world = .ok out' ∧ r = out'.elim id Prod.fst ∧
          r.world.captures = (batches.drop k).map (Batch.handedOut filter rx) ∧
          r.meter.tally.bytesTotal = r.meter.tally.packetsTotal * a.payload.length ∧
          (a.streamId ≠ b.streamId → r.meter.tally.packetsTotal = 0) ∧
          (a.streamId = b.streamId →
            r.meter.tally.packetsTotal + r.rx.queue.length +
                ((batches.drop k).flatMap Batch.emitted).length ≤ t.meter.tally.packetsTotal ∧
            ((∀ batch ∈ batches, batch.emitted.length ≤ 128) →
              r.meter.tally.packetsTotal + r.rx.queue.length +
                ((batches.drop k).flatMap Batch.emitted).length = t.meter.tally.packetsTotal ∧
              (0 < rounds' → rx.Attended (fromMillis 200) none world →
                0 < t.meter.tally.packetsTotal → 0 < r.meter.tally.packetsTotal))) := by
  obtain ⟨out, hout, n, -, ht, -⟩ := runTx_spec htx answers hclock hrounds
  refine ⟨out, _, hout, rfl, by rw [ht.bytes, ht.packets], ?_⟩
  intro batches hemitted hair world hworld rounds' last' hclock' hrounds'
  obtain ⟨out', hout', taken, drained, hr, -, htaken⟩ := runRx_spec hrx hclock' hrounds'
  have hcaptures := left_batches (hworld.symm.trans hr.captures)
  have hcontents := hr.contents hrx hfilter hair hworld ht hemitted
  have hbytes : (taken.map fun f => f.payload.length).sum = taken.length * a.payload.length := by
    have hall := hr.payload_eq hrx hfilter hair hworld ht hemitted
    rw [List.map_congr_left fun f hf => congrArg List.length (hall f hf)]
    simp
  -- the number of the frames taken and queued, batch by batch
  have hcount := congrArg List.length hcontents
  rw [List.length_map, List.length_append, List.length_flatMap] at hcount
  simp only [List.length_take, length_contents] at hcount
  refine ⟨out', _, drained.length, hout', rfl, hcaptures, by rw [hr.bytes, hr.packets, hbytes], ?_,
    ?_⟩
  · intro hne
    simp only [if_neg hne, Nat.min_zero, List.map_const', List.sum_replicate, smul_zero] at hcount
    rw [hr.packets]
    omega
  · intro hsame
    simp only [if_pos hsame] at hcount
    have hsent : ((batches.take drained.length).map fun batch => batch.emitted.length).sum +
        ((batches.drop drained.length).flatMap Batch.emitted).length = n := by
      rw [← List.length_flatMap, ← List.length_append, ← List.flatMap_append,
        List.take_append_drop, hemitted, ht.length]
    rw [hr.packets, ht.packets, hcount, ← hsent]
    constructor
    · refine Nat.add_le_add_right (List.sum_le_sum fun batch _ => min_le_right _ _) _
    · intro hroom
      have hmin : ((batches.take drained.length).map fun batch => min 128 batch.emitted.length) =
          (batches.take drained.length).map fun batch => batch.emitted.length :=
        List.map_congr_left fun batch hbatch =>
          min_eq_right (hroom batch (List.mem_of_mem_take hbatch))
      refine ⟨by rw [hmin], fun hrounds hatt hpos => List.length_pos_iff.mpr (htaken hrounds hatt ?_)⟩
      -- everything that was sent is ahead
      intro hnil
      have hahead := length_ahead hrx hfilter hair (hemitted ▸ ht.wellFormed) hworld
        (fun batch hbatch => (Batch.length_contents_le _ _ _).trans
          ((ringSize_opened hrx).symm ▸ hroom batch hbatch)) rfl
      have hstreams : a.txConfig.streamId = b.rxConfig.streamId := hsame
      rw [hnil, hemitted, List.filter_eq_self.mpr fun _ _ => decide_eq_true hstreams,
        List.length_map, ht.length, ← hsent] at hahead
      exact absurd hahead.symm hpos.ne'

theorem onWlan0_link : ∃ out r, runRx onWlan0 rxOnWlan0 2 0 firstWorld = .ok out ∧
    r = out.elim id Prod.fst ∧ r.meter.tally.packetsTotal = 1 ∧ r.rx.queue = [] ∧
    r.world.captures = [] := by
  obtain ⟨out, t, hout, ht, -, hlink⟩ := link_counts opened_txOnWlan0 opened_rxOnWlan0
    implements_eval (fun _ => .ok 0) (show [0, 5].Pairwise (· ≤ ·) by decide)
    (show 1 * computeMaxPayload < 2 ^ 64 by decide)
  obtain ⟨e, he, hframe, htotal⟩ : ∃ e : Emission Unit, t.emitted = [e] ∧
      e.frame.drop 13 = firstFrame ∧ t.meter.tally.packetsTotal = 1 := by
    have hrun : runTx onWlan0 txOnWlan0 (fun _ => .ok 0) 1 0 [5] = .ok _ := rfl
    obtain rfl := Except.ok.inj (hout.symm.trans hrun)
    rw [ht]
    exact ⟨_, rfl, by decide +kernel, rfl⟩
  have hcaptured : Captured e.frame bareHeader [] _
      (wholePacket (bareHeader ++ firstFrame) (by decide)).bytes :=
    ⟨by rw [bytes_wholePacket, hframe, List.append_nil], rfl, rfl, by decide, by decide, rfl⟩
  obtain ⟨out', r, k, hout', hr, hcaptures, -, -, hsame⟩ := hlink
    [⟨[e], [wholePacket (bareHeader ++ firstFrame) (by decide)]⟩] he.symm
    (by
      intro batch hbatch
      obtain rfl := List.mem_singleton.mp hbatch
      exact .frame hcaptured .nil)
    firstWorld rfl 2 0 (show [0, 1, 2, 3, 4].Pairwise (· ≤ ·) by decide) (by decide)
  obtain ⟨hall, hpos⟩ := (hsame rfl).2 (by
    intro batch hbatch
    obtain rfl := List.mem_singleton.mp hbatch
    exact show 1 ≤ 128 by decide)
  have hcounted := hpos (by decide) attended_firstWorld (htotal ▸ Nat.one_pos)
  rw [htotal] at hall
  refine ⟨out', r, hout', hr, by omega, List.eq_nil_of_length_eq_zero (by omega), ?_⟩
  cases k with
  | zero =>
      change _ + _ + 1 = 1 at hall
      omega
  | succ k => simpa using hcaptures

end Bandwidth

end Examples

end WfbRs
