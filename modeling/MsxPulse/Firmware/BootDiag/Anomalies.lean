import MsxPulse.Firmware.BootDiag.Round

/-!
# The anomalies of a round and of its passes

The passes of a round are kept as an observer sees them: the snapshot that each is
classified with, and how many reads have been captured since the one before. The code
classifies a pass with the reads of the whole round so far instead.
-/

namespace MsxPulse.Firmware.BootDiag

open Library

/-- The snapshot shows the anomaly, the number of reads being `events`. -/
def Shows (s : BusProbeSnapshot) (events : U32) : BootAnomaly → Prop
  | .clkAbsent => s.clkHz = 0#32
  | .clkOutOfRange => s.clkHz ≠ 0#32 ∧ (s.clkHz < 3000000#32 ∨ s.clkHz > 4000000#32)
  | .resetStuck => s.reset = .inReset
  | .noBusCycles => s.clkHz ≠ 0#32 ∧ events = 0#32
  | .waitStuckLow => s.ctrl .wait = .stuckLo

theorem classifyAnomalies_bit (s : BusProbeSnapshot) (events : U32) (a : BootAnomaly) :
    bitSet (classifyAnomalies s events) a.index = true ↔ Shows s events a := by
  unfold classifyAnomalies
  by_cases absent : s.clkHz = 0#32 <;>
    by_cases outOfRange : s.clkHz < 3000000#32 ∨ s.clkHz > 4000000#32 <;>
      by_cases none : events = 0#32 <;> by_cases stuck : s.reset = .inReset <;>
        by_cases wait : s.ctrl .wait = .stuckLo <;>
          cases a <;> simp only [absent, outOfRange, none, stuck, wait, Shows, ne_eq,
            not_true_eq_false, not_false_eq_true, false_and, and_false, and_true, if_true, if_false] <;>
              decide

theorem bitSet_or (f g : U16) (k : Nat) :
    bitSet (f ||| g) k = true ↔ bitSet f k = true ∨ bitSet g k = true := by
  rw [bitSet_eq_getLsbD, bitSet_eq_getLsbD, bitSet_eq_getLsbD, BitVec.getLsbD_or, Bool.or_eq_true]

/-- A pass of a round: its snapshot, and how many reads it has captured. -/
structure Pass where
  snap : BusProbeSnapshot
  reads : Nat

/-- The reads of all the passes. -/
def total (passes : List Pass) : Nat := passes.foldl (fun n p => n + p.reads) 0

theorem total_concat (passes : List Pass) (p : Pass) :
    total (passes ++ [p]) = total passes + p.reads := by
  rw [total, List.foldl_append]
  rfl

/-- Some pass shows the anomaly, with the reads of the round up to its end. -/
def Found (passes : List Pass) (a : BootAnomaly) : Prop :=
  ∃ before p after, passes = before ++ p :: after ∧
    Shows p.snap (BitVec.ofNat 32 (total before + p.reads)) a

theorem found_nil (a : BootAnomaly) : ¬Found [] a := by
  rintro ⟨before, p, after, none, -⟩
  exact List.append_ne_nil_of_right_ne_nil before (List.cons_ne_nil p after) none.symm

theorem found_concat (passes : List Pass) (p : Pass) (a : BootAnomaly) :
    Found (passes ++ [p]) a ↔
      Found passes a ∨ Shows p.snap (BitVec.ofNat 32 (total passes + p.reads)) a := by
  constructor
  · rintro ⟨before, q, after, split, shown⟩
    rcases List.eq_nil_or_concat after with rfl | ⟨after, last, rfl⟩
    · obtain ⟨rfl, same⟩ := List.append_inj' split rfl
      obtain rfl : p = q := List.singleton_inj.mp same
      exact .inr shown
    · rw [List.concat_eq_append, ← List.cons_append, ← List.append_assoc] at split
      exact .inl ⟨before, q, after, (List.append_inj' split rfl).1, shown⟩
  · rintro (⟨before, q, after, rfl, shown⟩ | shown)
    · exact ⟨before, q, after ++ [p], by simp, shown⟩
    · exact ⟨passes, p, [], rfl, shown⟩

/-- The flags are the anomalies of the passes, as the code reads them. -/
def Collects (flags : U16) (passes : List Pass) : Prop :=
  ∀ a : BootAnomaly, bitSet flags a.index = true ↔ Found passes a

theorem collects_nil : Collects 0#16 [] := fun a =>
  iff_of_false (by cases a <;> decide) (found_nil a)

theorem Collects.concat {flags : U16} {passes : List Pass} (h : Collects flags passes) (p : Pass) :
    Collects (flags ||| classifyAnomalies p.snap (BitVec.ofNat 32 (total passes + p.reads)))
      (passes ++ [p]) := by
  intro a
  rw [bitSet_or, h a, classifyAnomalies_bit, found_concat]

/-! ## Rounds as an observer sees them -/

inductive PassEvent where
  | start
  | tick (nowMs : U32) (snap : BusProbeSnapshot) (bs : BootDetect)
  | read (addr : U16) (data : U8)

structure Observed where
  diag : BootDiag
  /-- The passes that the current round, or the last one, has classified. -/
  passes : List Pass
  /-- The reads captured since. -/
  reads : Nat

namespace Observed

def initial : Observed := ⟨.initial, [], 0⟩

/-- The tick classifies a pass. -/
def classifies (before after : BootDiag) : Bool :=
  decide (before.phase = .settle) && decide (after.phase ≠ .settle)

def machine : Machine Observed PassEvent DiagCall where
  step
    | m, .start => ({ m with diag := m.diag.start }, [])
    | m, .read addr data =>
      ({ m with diag := { m.diag with bi := m.diag.bi.feed addr data }, reads := m.reads + 1 }, [])
    | m, .tick nowMs snap bs =>
      let next := m.diag.tick snap bs nowMs
      if classifies m.diag next.1 then (⟨next.1, m.passes ++ [⟨snap, m.reads⟩], 0⟩, next.2)
      else if Monitored.beginsRound m.diag next.1 then (⟨next.1, [], 0⟩, next.2)
      else ({ m with diag := next.1 }, next.2)

/-- A round is on. -/
def Running (m : Observed) : Prop := m.diag.phase ≠ .idle ∧ m.diag.phase ≠ .done

/-- What the statics hold of the passes. -/
structure Tracked (m : Observed) : Prop where
  reads : m.Running → m.diag.bi.nReads = BitVec.ofNat 32 (total m.passes + m.reads)
  flags : m.Running → Collects m.diag.anomAccum m.passes
  count : m.Running → m.passes.length = m.diag.pass.toNat ∧ m.diag.pass.toNat ≤ 2
  frozen : m.diag.phase = .done → Collects m.diag.result.anomalyFlags m.passes ∧
    m.passes.length = m.diag.result.passesRun.toNat ∧ m.passes.length ≤ 3

theorem initial_tracked : initial.Tracked where
  reads running := absurd rfl running.1
  flags running := absurd rfl running.1
  count running := absurd rfl running.1
  frozen finished := BootDiagPhase.noConfusion finished

variable {m : Observed}

theorem Tracked.start (h : m.Tracked) : (machine.step m .start).1.Tracked := by
  by_cases ready : m.diag.phase = .idle ∨ m.diag.phase = .done
  · have same : m.diag.start = { m.diag with request := true } := by
      rw [BootDiag.start, if_neg fun both => ready.elim both.1 both.2]
    show Tracked { m with diag := m.diag.start }
    rw [same]
    exact ⟨h.reads, h.flags, h.count, h.frozen⟩
  · rw [not_or] at ready
    show Tracked { m with diag := m.diag.start }
    rw [start_of_running ready.1 ready.2]
    exact h

theorem Tracked.read (h : m.Tracked) (addr : U16) (data : U8) :
    (machine.step m (.read addr data)).1.Tracked where
  reads running := by
    show (m.diag.bi.feed addr data).nReads = _
    rw [BusIntegrity.feed_eq]
    show m.diag.bi.nReads + 1#32 = BitVec.ofNat 32 (total m.passes + (m.reads + 1))
    rw [h.reads running, ← Nat.add_assoc, BitVec.ofNat_add (total m.passes + m.reads) 1]
  flags := h.flags
  count := h.count
  frozen := h.frozen

theorem Tracked.concat (h : m.Tracked) (settled : m.diag.phase = .settle) (snap : BusProbeSnapshot) :
    Collects (m.diag.anomAccum ||| classifyAnomalies snap m.diag.bi.nReads)
        (m.passes ++ [⟨snap, m.reads⟩]) ∧
      (m.passes ++ [(⟨snap, m.reads⟩ : Pass)]).length = (m.diag.pass + 1#8).toNat ∧
      (m.diag.pass + 1#8).toNat ≤ 3 := by
  have running : m.Running := by rw [Running, settled]; decide
  obtain ⟨same, small⟩ := h.count running
  have counted := Monitored.toNat_add_one small
  rw [h.reads running, List.length_append, same, counted]
  exact ⟨(h.flags running).concat ⟨snap, m.reads⟩, rfl, by omega⟩

theorem Tracked.tick (h : m.Tracked) (nowMs : U32) (snap : BusProbeSnapshot) (bs : BootDetect) :
    (machine.step m (.tick nowMs snap bs)).1.Tracked := by
  have outcome := tick_outcome m.diag snap bs nowMs
  simp only [machine]
  generalize m.diag.tick snap bs nowMs = next at outcome
  cases outcome with
  | wait stays early armed =>
    have same : classifies m.diag m.diag = false := by
      cases phase : m.diag.phase <;> simp [classifies, phase]
    have other : Monitored.beginsRound m.diag m.diag = false := by
      simp [Monitored.beginsRound, armed]
    rw [same, other]
    exact h
  | beginRound ready requested =>
    have outside : m.diag.phase ≠ .settle := by rcases ready with phase | phase <;> simp [phase]
    simp only [classifies, Monitored.beginsRound, outside, ready, decide_false, decide_true,
      Bool.false_and, Bool.and_self, Bool.false_eq_true, if_false, if_true]
    exact ⟨fun _ => rfl, fun _ => collects_nil, fun _ => ⟨rfl, Nat.zero_le 2⟩,
      fun finished => BootDiagPhase.noConfusion finished⟩
  | beginPass armed =>
    have running : m.Running := by rw [Running, armed]; decide
    simp only [classifies, Monitored.beginsRound, armed, reduceCtorEq, decide_false, or_self,
      Bool.false_and, Bool.false_eq_true, if_false]
    exact ⟨fun _ => h.reads running, fun _ => h.flags running, fun _ => h.count running,
      fun finished => BootDiagPhase.noConfusion finished⟩
  | endWindow capturing late =>
    have running : m.Running := by rw [Running, capturing]; decide
    simp only [classifies, Monitored.beginsRound, capturing, reduceCtorEq, decide_false, or_self,
      Bool.false_and, Bool.false_eq_true, if_false]
    exact ⟨fun _ => h.reads running, fun _ => h.flags running, fun _ => h.count running,
      fun finished => BootDiagPhase.noConfusion finished⟩
  | nextPass settled late incomplete remaining =>
    obtain ⟨flags, count, -⟩ := h.concat settled snap
    have running : m.Running := by rw [Running, settled]; decide
    have more : (m.diag.pass + 1#8).toNat < 3 := BitVec.lt_def.mp remaining
    simp only [classifies, settled, ne_eq, reduceCtorEq, not_false_eq_true, decide_true,
      Bool.and_self, if_true]
    refine ⟨fun _ => ?_, fun _ => flags, fun _ => ⟨count, Nat.le_of_lt_succ more⟩,
      fun finished => BootDiagPhase.noConfusion finished⟩
    show m.diag.bi.nReads = _
    rw [h.reads running, total_concat]
    rfl
  | finish settled late stops =>
    obtain ⟨flags, count, most⟩ := h.concat settled snap
    simp only [classifies, settled, ne_eq, reduceCtorEq, not_false_eq_true, decide_true,
      Bool.and_self, if_true]
    exact ⟨fun running => absurd rfl running.2, fun running => absurd rfl running.2,
      fun running => absurd rfl running.2, fun _ => ⟨flags, count, count ▸ most⟩⟩

/-- In every run the statics hold what the observer sees. -/
theorem tracked_of_run (events : List PassEvent) : (machine.final initial events).Tracked :=
  machine.final_preserved Tracked
    (fun _ e h => match e with
      | .start => h.start
      | .tick nowMs snap bs => h.tick nowMs snap bs
      | .read addr data => h.read addr data)
    initial_tracked events

end Observed

/-! ## What the flags say of the passes -/

/-- The snapshot shows a clock, and the pass itself has captured no read. -/
def Pass.Dead (p : Pass) : Prop := p.snap.clkHz ≠ 0#32 ∧ p.reads = 0

instance (p : Pass) : Decidable p.Dead := inferInstanceAs (Decidable (_ ∧ _))

/-- A pass with a clock ends when the round has captured no read so far, as 32 bits count. -/
def NoneSoFar (passes : List Pass) : Prop :=
  ∃ before p after, passes = before ++ p :: after ∧ p.snap.clkHz ≠ 0#32 ∧
    (total before + p.reads) % 2 ^ 32 = 0

/-- The flags are the union of what each pass shows by itself. -/
structure Union (flags : U16) (passes : List Pass) : Prop where
  clkAbsent : bitSet flags BootAnomaly.clkAbsent.index = true ↔
    ∃ p ∈ passes, p.snap.clkHz = 0#32
  clkOutOfRange : bitSet flags BootAnomaly.clkOutOfRange.index = true ↔
    ∃ p ∈ passes, p.snap.clkHz ≠ 0#32 ∧ (p.snap.clkHz < 3000000#32 ∨ p.snap.clkHz > 4000000#32)
  resetStuck : bitSet flags BootAnomaly.resetStuck.index = true ↔
    ∃ p ∈ passes, p.snap.reset = .inReset
  noBusCycles : bitSet flags BootAnomaly.noBusCycles.index = true ↔ ∃ p ∈ passes, p.Dead
  waitStuckLow : bitSet flags BootAnomaly.waitStuckLow.index = true ↔
    ∃ p ∈ passes, p.snap.ctrl .wait = .stuckLo

/-- An anomaly that does not depend on the reads is found where a pass shows it. -/
theorem found_iff_mem {passes : List Pass} {a : BootAnomaly} (shown : BusProbeSnapshot → Prop)
    (own : ∀ s events, Shows s events a ↔ shown s) :
    Found passes a ↔ ∃ p ∈ passes, shown p.snap := by
  constructor
  · rintro ⟨before, p, after, rfl, here⟩
    exact ⟨p, by simp, (own _ _).mp here⟩
  · rintro ⟨p, mem, here⟩
    obtain ⟨before, after, rfl⟩ := List.append_of_mem mem
    exact ⟨before, p, after, rfl, (own _ _).mpr here⟩

theorem found_noBusCycles_iff (passes : List Pass) :
    Found passes .noBusCycles ↔ NoneSoFar passes := by
  refine exists_congr fun before => exists_congr fun p => exists_congr fun after =>
    and_congr_right fun _ => and_congr_right fun _ => ?_
  rw [← BitVec.toNat_inj, BitVec.toNat_ofNat]
  rfl

/-- With the flags that the code collects, only NO_BUS_CYCLES can differ from the union. -/
theorem Collects.union_iff {flags : U16} {passes : List Pass} (h : Collects flags passes) :
    Union flags passes ↔ ((∃ p ∈ passes, p.Dead) ↔ NoneSoFar passes) := by
  have code : bitSet flags BootAnomaly.noBusCycles.index = true ↔ NoneSoFar passes :=
    (h .noBusCycles).trans (found_noBusCycles_iff passes)
  constructor
  · intro union
    exact union.noBusCycles.symm.trans code
  · intro same
    exact
      { clkAbsent := (h .clkAbsent).trans
          (found_iff_mem (fun s => s.clkHz = 0#32) fun _ _ => Iff.rfl)
        clkOutOfRange := (h .clkOutOfRange).trans (found_iff_mem
          (fun s => s.clkHz ≠ 0#32 ∧ (s.clkHz < 3000000#32 ∨ s.clkHz > 4000000#32))
          fun _ _ => Iff.rfl)
        resetStuck := (h .resetStuck).trans
          (found_iff_mem (fun s => s.reset = .inReset) fun _ _ => Iff.rfl)
        noBusCycles := code.trans same.symm
        waitStuckLow := (h .waitStuckLow).trans
          (found_iff_mem (fun s => s.ctrl .wait = .stuckLo) fun _ _ => Iff.rfl) }

namespace Observed

/-- The frozen flags of a round are the union over its passes, of which there are at most
three, if and only if a pass with a clock and no read of its own goes with a pass with a
clock at whose end the round has no read so far. -/
theorem round_flags_iff (events : List PassEvent)
    (finished : (machine.final initial events).diag.phase = .done) :
    let m := machine.final initial events
    (Union m.diag.result.anomalyFlags m.passes ↔
        ((∃ p ∈ m.passes, p.Dead) ↔ NoneSoFar m.passes)) ∧
      m.passes.length = m.diag.result.passesRun.toNat ∧ m.passes.length ≤ 3 := by
  obtain ⟨flags, count, most⟩ := (tracked_of_run events).frozen finished
  exact ⟨flags.union_iff, count, most⟩

/-- A probe with the clock of a Z80. -/
def clocked : BusProbeSnapshot := { BusProbe.unpublished with clkHz := 3579545#32 }

/-- One pass of a round, from `t` on, with the reads of the pass. -/
def passAt (t : U32) (snap : BusProbeSnapshot) (reads : List PassEvent) : List PassEvent :=
  [.tick t snap .reset] ++ reads ++ [.tick (t + 8000) snap .reset, .tick (t + 8060) snap .reset]

/-- The machine runs in the first pass and is dead in the two after it. -/
def deadLater : List PassEvent :=
  [.start, .tick 0 clocked .reset] ++ passAt 1 clocked [.read 0x0000#16 0xF3#8] ++
    passAt 9000 clocked [] ++ passAt 18000 clocked []

theorem round_flags_iff_deadLater : Union
      (machine.final initial deadLater).diag.result.anomalyFlags
      (machine.final initial deadLater).passes ↔
    ((∃ p ∈ (machine.final initial deadLater).passes, p.Dead) ↔
      NoneSoFar (machine.final initial deadLater).passes) :=
  (round_flags_iff deadLater (by decide +kernel)).1

theorem deadLater_unflagged : ¬∀ events : List PassEvent,
    (machine.final initial events).diag.phase = .done →
      Union (machine.final initial events).diag.result.anomalyFlags
        (machine.final initial events).passes := by
  intro union
  have dead : ∃ p ∈ (machine.final initial deadLater).passes, p.Dead := by decide +kernel
  have flagged := (union deadLater (by decide +kernel)).noBusCycles.mpr dead
  exact absurd flagged (by decide +kernel)

end Observed

end MsxPulse.Firmware.BootDiag
