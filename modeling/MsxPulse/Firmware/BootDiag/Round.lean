import MsxPulse.Firmware.BootDiag
import Mathlib.Data.List.Count
import Mathlib.Tactic.IntervalCases

/-!
# The invariant of the diagnostic round

The orchestrator is driven by three parties: whoever calls `boot_diag_start`, the
main loop that calls `boot_diag_tick`, and core 1, which feeds the read analyzer
at any time. Time is a natural number of milliseconds; a tick sees only its low
32 bits. `Monitored` adds to the statics what an observer of the calls knows: when
the last tick was, when the current pass began, and how many /RESET pulses the
current round has issued.
-/

namespace MsxPulse.Firmware.BootDiag

open Library

/-- What one tick can do, with everything that must hold for it to do so. -/
inductive TickOutcome (d : BootDiag) (snap : BusProbeSnapshot) (bs : BootDetect) (nowMs : U32) :
    BootDiag × List DiagCall → Prop where
  | wait
      (stays : d.phase = .idle ∨ d.phase = .done → d.request = false)
      (early : d.phase = .capturing ∨ d.phase = .settle → reached nowMs d.deadlineMs = false)
      (armed : d.phase ≠ .passBegin) :
      TickOutcome d snap bs nowMs (d, [])
  | beginRound
      (ready : d.phase = .idle ∨ d.phase = .done)
      (requested : d.request = true) :
      TickOutcome d snap bs nowMs
        ({ d with
            request := false, inited := true, bi := .reset, pass := 0#8, anomAccum := 0#16
            phase := .passBegin },
          (if d.inited then [] else [.alogInit, .bootCaptureInit, .txnCaptureInit]) ++
            [.bootDetectReset])
  | beginPass (armed : d.phase = .passBegin) :
      TickOutcome d snap bs nowMs
        ({ d with captureActive := true, deadlineMs := nowMs + windowMs, phase := .capturing },
          [.bootCaptureReset, .txnCaptureReset, .pulseResetPassive])
  | endWindow
      (capturing : d.phase = .capturing)
      (late : reached nowMs d.deadlineMs = true) :
      TickOutcome d snap bs nowMs
        ({ d with captureActive := false, deadlineMs := nowMs + 60#32, phase := .settle },
          [.bootCaptureStop, .txnCaptureStop])
  | nextPass
      (settled : d.phase = .settle)
      (late : reached nowMs d.deadlineMs = true)
      (incomplete : roundShouldStop bs.phaseFlags
        (d.anomAccum ||| classifyAnomalies snap d.bi.nReads) = false)
      (remaining : d.pass + 1#8 < maxPasses) :
      TickOutcome d snap bs nowMs
        ({ d with
            anomAccum := d.anomAccum ||| classifyAnomalies snap d.bi.nReads
            pass := d.pass + 1#8
            phase := .passBegin }, [])
  | finish
      (settled : d.phase = .settle)
      (late : reached nowMs d.deadlineMs = true)
      (stops : roundShouldStop bs.phaseFlags
          (d.anomAccum ||| classifyAnomalies snap d.bi.nReads) = true ∨
        maxPasses ≤ d.pass + 1#8) :
      TickOutcome d snap bs nowMs
        ({ d with
            anomAccum := d.anomAccum ||| classifyAnomalies snap d.bi.nReads
            pass := d.pass + 1#8
            result := freezeResult { d with
              anomAccum := d.anomAccum ||| classifyAnomalies snap d.bi.nReads
              pass := d.pass + 1#8 } bs
            phase := .done }, [])

theorem tickIdle_outcome (d : BootDiag) (snap : BusProbeSnapshot) (bs : BootDetect)
    (nowMs : U32) (ready : d.phase = .idle ∨ d.phase = .done) :
    TickOutcome d snap bs nowMs d.tickIdle := by
  unfold tickIdle
  split
  · exact .beginRound ready ‹_›
  · rename_i quiet
    refine .wait (fun _ => by simpa using quiet) ?_ ?_ <;> rcases ready with h | h <;> simp [h]

theorem tick_outcome (d : BootDiag) (snap : BusProbeSnapshot) (bs : BootDetect) (nowMs : U32) :
    TickOutcome d snap bs nowMs (d.tick snap bs nowMs) := by
  unfold tick
  cases phase : d.phase with
  | idle => exact tickIdle_outcome d snap bs nowMs (.inl phase)
  | done => exact tickIdle_outcome d snap bs nowMs (.inr phase)
  | passBegin => exact .beginPass phase
  | capturing =>
    simp only [tickCapturing]
    split
    · exact .endWindow phase ‹_›
    · rename_i early
      exact .wait (by simp [phase]) (fun _ => by simpa using early) (by simp [phase])
  | settle =>
    simp only [tickSettle]
    split
    · split
      · exact .finish phase ‹_› ‹_›
      · rename_i unfinished
        rw [not_or] at unfinished
        exact .nextPass phase ‹_› (by simpa using unfinished.1) (BitVec.not_le.mp unfinished.2)
    · rename_i early
      exact .wait (by simp [phase]) (fun _ => by simpa using early) (by simp [phase])

theorem complete_getLsbD (k : Nat) : (0x1FF#16).getLsbD k = decide (k < BootPhase.count) := by
  by_cases inside : k < 16
  · interval_cases k <;> rfl
  · have above : ¬ k < BootPhase.count := fun h => inside (Nat.lt_trans h (by decide))
    simp [above, BitVec.getLsbD_of_ge _ _ (Nat.le_of_not_lt inside)]

/-- A round stops early exactly when the detector has seen all nine phases. -/
theorem roundShouldStop_iff (flags anomalies : U16) :
    roundShouldStop flags anomalies = true ↔ ∀ p : BootPhase, bitSet flags p.index = true := by
  simp only [roundShouldStop, beq_iff_eq, bitSet_eq_getLsbD]
  constructor
  · intro all p
    have read := congrArg (fun v => v.getLsbD p.index) all
    simpa only [BitVec.getLsbD_and, complete_getLsbD, p.index_lt, decide_true, Bool.and_true]
      using read
  · intro all
    apply BitVec.eq_of_getLsbD_eq
    intro k _
    rw [BitVec.getLsbD_and, complete_getLsbD]
    by_cases inside : k < BootPhase.count
    · obtain ⟨p, rfl⟩ := BootPhase.exists_index inside
      simp [all p, inside, -BitVec.getLsbD_eq_getElem]
    · simp [inside]

/-! ## Wrapping time -/

/-- The signed distance test agrees with the order of the unwrapped times while
they are less than half the counter's range apart. -/
theorem reached_ofNat {now deadline : Nat} (near : deadline ≤ now + 2 ^ 31)
    (far : now < deadline + 2 ^ 31) :
    reached (BitVec.ofNat 32 now) (BitVec.ofNat 32 deadline) = decide (deadline ≤ now) := by
  have difference : (BitVec.ofNat 32 now - BitVec.ofNat 32 deadline).toInt =
      ((now : Int) - (deadline : Int)).bmod (2 ^ 32) := by
    rw [BitVec.toInt_sub, BitVec.toInt_ofNat', BitVec.toInt_ofNat', Int.bmod_sub_bmod,
      Int.sub_bmod_bmod]
  have small : ((now : Int) - (deadline : Int)).bmod (2 ^ 32) = (now : Int) - (deadline : Int) :=
    Int.bmod_eq_of_le (by omega) (by omega)
  unfold reached
  rw [difference, small]
  apply decide_eq_decide.mpr
  omega

theorem ofNat_add_windowMs (t : Nat) :
    BitVec.ofNat 32 t + windowMs = BitVec.ofNat 32 (t + 8000) := by
  rw [BitVec.ofNat_add]
  rfl

/-- A request is taken only between rounds. -/
theorem start_of_running {d : BootDiag} (idle : d.phase ≠ .idle) (done : d.phase ≠ .done) :
    d.start = d := by
  simp [start, idle, done]

theorem start_request (d : BootDiag) :
    d.start.request = (d.request || decide (d.phase = .idle ∨ d.phase = .done)) := by
  cases phase : d.phase <;> simp [start, phase]

@[simp] theorem start_phase (d : BootDiag) : d.start.phase = d.phase := by
  unfold start
  split <;> rfl

@[simp] theorem start_start (d : BootDiag) : d.start.start = d.start := by
  cases phase : d.phase <;> simp [start, phase]

theorem start_eq (d : BootDiag) :
    d.start = { d with request := d.start.request } := by
  unfold start
  split <;> rfl

/-! ## Monitored runs -/

inductive DiagEvent where
  | start
  | tick (timeMs : Nat) (snap : BusProbeSnapshot) (bs : BootDetect)
  | analyzer (bi : BusIntegrity)

structure Monitored where
  diag : BootDiag
  lastTick : Option Nat
  passBegan : Nat
  pulses : Nat

namespace Monitored

def initial : Monitored := ⟨.initial, none, 0, 0⟩

/-- The tick that leaves IDLE or DONE begins a round. -/
def beginsRound (before after : BootDiag) : Bool :=
  decide (before.phase = .idle ∨ before.phase = .done) && decide (after.phase = .passBegin)

def machine : Machine Monitored DiagEvent DiagCall where
  step
    | m, .start => ({ m with diag := m.diag.start }, [])
    | m, .analyzer bi => ({ m with diag := { m.diag with bi := bi } }, [])
    | m, .tick t snap bs =>
      let next := m.diag.tick snap bs (BitVec.ofNat 32 t)
      ({ diag := next.1
         lastTick := some t
         passBegan := if m.diag.phase = .passBegin then t else m.passBegan
         pulses := (if beginsRound m.diag next.1 then 0 else m.pulses) +
           next.2.count .pulseResetPassive }, next.2)

/-- Ticks come less than 2^31 − 8000 ms after one another; nothing else is assumed. -/
def Timely (m : Monitored) : DiagEvent → Prop
  | .tick t _ _ => ∀ last ∈ m.lastTick, last ≤ t ∧ t - last < 2 ^ 31 - 8000
  | _ => True

/-- A step that freezes a result. -/
def EntersDone (m : Monitored) (e : DiagEvent) : Prop :=
  m.diag.phase ≠ .done ∧ (machine.step m e).1.diag.phase = .done

instance (m : Monitored) : ∀ e : DiagEvent, Decidable (m.Timely e)
  | .start => inferInstanceAs (Decidable True)
  | .analyzer _ => inferInstanceAs (Decidable True)
  | .tick t _ _ =>
    inferInstanceAs (Decidable (∀ last ∈ m.lastTick, last ≤ t ∧ t - last < 2 ^ 31 - 8000))

instance (m : Monitored) (e : DiagEvent) : Decidable (m.EntersDone e) :=
  inferInstanceAs (Decidable (_ ∧ _))

/-- What the statics and the observer's records say about each other between ticks. -/
structure Consistent (m : Monitored) : Prop where
  capture : m.diag.captureActive = true ↔ m.diag.phase = .capturing
  request : m.diag.request = true → m.diag.phase = .idle ∨ m.diag.phase = .done
  pulses : m.pulses = m.diag.pass.toNat +
    if m.diag.phase = .capturing ∨ m.diag.phase = .settle then 1 else 0
  passes : m.diag.pass.toNat ≤ if m.diag.phase = .done then 3 else 2
  window : m.diag.phase = .capturing →
    m.diag.deadlineMs = BitVec.ofNat 32 (m.passBegan + 8000) ∧
      ∃ last, m.lastTick = some last ∧ m.passBegan ≤ last ∧ last < m.passBegan + 8000

theorem initial_consistent : initial.Consistent where
  capture := by simp [initial, BootDiag.initial]
  request := by simp [initial, BootDiag.initial]
  pulses := by simp [initial, BootDiag.initial]
  passes := by simp [initial, BootDiag.initial]
  window := by simp [initial, BootDiag.initial]

theorem Consistent.start {m : Monitored} (c : m.Consistent) :
    (machine.step m .start).1.Consistent := by
  by_cases ready : m.diag.phase = .idle ∨ m.diag.phase = .done
  · have asked : m.diag.start = { m.diag with request := true } := by
      rcases ready with h | h <;> simp [BootDiag.start, h]
    simp only [machine, asked]
    exact ⟨c.capture, fun _ => ready, c.pulses, c.passes, c.window⟩
  · rw [not_or] at ready
    simp only [machine, start_of_running ready.1 ready.2]
    exact c

/-- In CAPTURING the wrapped comparison decides whether the window is over. -/
theorem Consistent.reached_iff {m : Monitored} (c : m.Consistent) {t : Nat}
    {snap : BusProbeSnapshot} {bs : BootDetect} (timely : m.Timely (.tick t snap bs))
    (capturing : m.diag.phase = .capturing) :
    reached (BitVec.ofNat 32 t) m.diag.deadlineMs = true ↔ m.passBegan + 8000 ≤ t := by
  obtain ⟨deadline, last, ticked, after, before⟩ := c.window capturing
  obtain ⟨forward, soon⟩ := timely last (by simp [ticked])
  rw [deadline, reached_ofNat (by omega) (by omega), decide_eq_true_iff]

theorem toNat_add_one {pass : U8} (small : pass.toNat ≤ 2) :
    (pass + 1#8).toNat = pass.toNat + 1 := by
  rw [BitVec.toNat_add]
  exact Nat.mod_eq_of_lt (by simp; omega)

theorem Consistent.not_active {m : Monitored} (c : m.Consistent)
    (elsewhere : m.diag.phase ≠ .capturing) : m.diag.captureActive = false := by
  rw [← Bool.not_eq_true, c.capture]
  exact elsewhere

theorem Consistent.not_pending {m : Monitored} (c : m.Consistent) (idle : m.diag.phase ≠ .idle)
    (done : m.diag.phase ≠ .done) : m.diag.request ≠ true := fun pending =>
  (c.request pending).elim idle done

theorem Consistent.tick {m : Monitored} (c : m.Consistent) {t : Nat} {snap : BusProbeSnapshot}
    {bs : BootDetect} (timely : m.Timely (.tick t snap bs)) :
    (machine.step m (.tick t snap bs)).1.Consistent := by
  have outcome := tick_outcome m.diag snap bs (BitVec.ofNat 32 t)
  have inTime := fun capturing => c.reached_iff timely capturing
  simp only [machine]
  generalize m.diag.tick snap bs (BitVec.ofNat 32 t) = next at outcome
  cases outcome with
  | wait stays early armed =>
    have same : beginsRound m.diag m.diag = false := by simp [beginsRound, armed]
    refine ⟨c.capture, c.request, ?_, c.passes, ?_⟩
    · simpa [same] using c.pulses
    · intro capturing
      obtain ⟨deadline, last, ticked, after, -⟩ := c.window capturing
      have forward := (timely last (by simp [ticked])).1
      have within : ¬ m.passBegan + 8000 ≤ t := by
        rw [← inTime capturing, early (.inl capturing)]
        exact Bool.false_ne_true
      simp only [armed, if_false]
      exact ⟨deadline, t, rfl, by omega, by omega⟩
  | beginRound ready requested =>
    have idle := c.not_active (by rcases ready with h | h <;> simp [h])
    refine ⟨by simp [idle], by simp, ?_, by simp, by simp⟩
    rcases Bool.eq_false_or_eq_true m.diag.inited with h | h <;>
      simp [beginsRound, ready, h]
  | beginPass armed =>
    have pulses := c.pulses
    have passes := c.passes
    simp only [armed, reduceCtorEq, or_self, if_false] at pulses passes
    have waiting := c.not_pending (by simp [armed]) (by simp [armed])
    refine ⟨by simp, fun pending => absurd pending waiting, ?_, by simpa using passes, ?_⟩
    · simp [beginsRound, armed, pulses]
    · simp [armed, ofNat_add_windowMs]
  | endWindow capturing late =>
    have pulses := c.pulses
    have passes := c.passes
    simp only [capturing, reduceCtorEq, true_or, if_true, if_false] at pulses passes
    have waiting := c.not_pending (by simp [capturing]) (by simp [capturing])
    refine ⟨by simp, fun pending => absurd pending waiting, ?_, by simpa using passes, by simp⟩
    simp [beginsRound, capturing, pulses]
  | nextPass settled late incomplete remaining =>
    have pulses := c.pulses
    have passes := c.passes
    simp only [settled, reduceCtorEq, or_true, if_true, if_false] at pulses passes
    have stopped := c.not_active (by simp [settled])
    have counted := toNat_add_one passes
    have below : (m.diag.pass + 1#8).toNat < 3 := BitVec.lt_def.mp remaining
    have waiting := c.not_pending (by simp [settled]) (by simp [settled])
    refine ⟨by simp [stopped], fun pending => absurd pending waiting, ?_, ?_, by simp⟩
    · simp [beginsRound, settled, pulses, counted]
    · simp only [reduceCtorEq, if_false]
      omega
  | finish settled late stops =>
    have pulses := c.pulses
    have passes := c.passes
    simp only [settled, reduceCtorEq, or_true, if_true, if_false] at pulses passes
    have stopped := c.not_active (by simp [settled])
    have counted := toNat_add_one passes
    refine ⟨by simp [stopped], by simp, ?_, ?_, by simp⟩
    · simp [beginsRound, settled, pulses, counted]
    · simp only [if_true]
      omega

theorem Consistent.step {m : Monitored} (c : m.Consistent) {e : DiagEvent} (timely : m.Timely e) :
    (machine.step m e).1.Consistent := by
  cases e with
  | start => exact c.start
  | analyzer bi => exact ⟨c.capture, c.request, c.pulses, c.passes, c.window⟩
  | tick t snap bs => exact c.tick timely

theorem consistent_of_run {events : List DiagEvent}
    (timely : machine.Along Timely initial events) : (machine.final initial events).Consistent :=
  machine.final_invariant Timely Consistent (fun _ _ c h => c.step h) initial_consistent timely

/-! ## What single steps change -/

theorem phase_of_not_tick (m : Monitored) {e : DiagEvent} (other : ∀ t snap bs, e ≠ .tick t snap bs) :
    (machine.step m e).1.diag.phase = m.diag.phase := by
  cases e with
  | start =>
    show m.diag.start.phase = m.diag.phase
    rw [start_eq]
  | analyzer bi => rfl
  | tick t snap bs => exact absurd rfl (other t snap bs)

/-- CAPTURING is left by a tick exactly when the pass is 8000 ms old. -/
theorem Consistent.leaves_iff {m : Monitored} (c : m.Consistent) {t : Nat}
    {snap : BusProbeSnapshot} {bs : BootDetect} (timely : m.Timely (.tick t snap bs))
    (capturing : m.diag.phase = .capturing) :
    (machine.step m (.tick t snap bs)).1.diag.phase ≠ .capturing ↔ m.passBegan + 8000 ≤ t := by
  have outcome := tick_outcome m.diag snap bs (BitVec.ofNat 32 t)
  rw [← c.reached_iff timely capturing]
  show (m.diag.tick snap bs (BitVec.ofNat 32 t)).1.phase ≠ .capturing ↔ _
  generalize m.diag.tick snap bs (BitVec.ofNat 32 t) = next at outcome
  cases outcome with
  | wait stays early armed => simp [capturing, early (.inl capturing)]
  | beginRound ready requested => simp [capturing] at ready
  | beginPass armed => simp [capturing] at armed
  | endWindow capturing late => simp [late]
  | nextPass settled late incomplete remaining => simp [capturing] at settled
  | finish settled late stops => simp [capturing] at settled

/-- A frozen result counts one to three passes, fewer than three only after a complete boot. -/
theorem Consistent.entersDone {m : Monitored} (c : m.Consistent) {e : DiagEvent}
    (enters : m.EntersDone e) :
    let result := (machine.step m e).1.diag.result
    1 ≤ result.passesRun.toNat ∧ result.passesRun.toNat ≤ 3 ∧
      (result.passesRun.toNat < 3 → ∀ p : BootPhase, bitSet result.phaseFlags p.index = true) := by
  obtain ⟨before, after⟩ := enters
  cases e with
  | start => exact absurd ((phase_of_not_tick m (by simp)).symm.trans after) before
  | analyzer bi => exact absurd after before
  | tick t snap bs =>
    have outcome := tick_outcome m.diag snap bs (BitVec.ofNat 32 t)
    simp only [machine] at after ⊢
    generalize m.diag.tick snap bs (BitVec.ofNat 32 t) = next at outcome after
    cases outcome with
    | wait stays early armed => exact absurd after before
    | beginRound ready requested => simp at after
    | beginPass armed => simp at after
    | endWindow capturing late => simp at after
    | nextPass settled late incomplete remaining => simp at after
    | finish settled late stops =>
      have passes := c.passes
      simp only [settled, reduceCtorEq, if_false] at passes
      have counted := toNat_add_one passes
      refine ⟨?_, ?_, ?_⟩
      · show 1 ≤ (m.diag.pass + 1#8).toNat
        omega
      · show (m.diag.pass + 1#8).toNat ≤ 3
        omega
      · intro fewer
        rcases stops with complete | exhausted
        · exact (roundShouldStop_iff _ _).mp complete
        · exact absurd (BitVec.le_def.mp exhausted) (Nat.not_le.mpr fewer)

/-- Only a step into DONE touches the frozen result. -/
theorem result_of_not_entersDone (m : Monitored) {e : DiagEvent} (quiet : ¬ m.EntersDone e) :
    (machine.step m e).1.diag.result = m.diag.result := by
  cases e with
  | start =>
    show m.diag.start.result = m.diag.result
    rw [start_eq]
  | analyzer bi => rfl
  | tick t snap bs =>
    have outcome := tick_outcome m.diag snap bs (BitVec.ofNat 32 t)
    simp only [EntersDone, machine] at quiet ⊢
    generalize m.diag.tick snap bs (BitVec.ofNat 32 t) = next at outcome quiet
    cases outcome with
    | wait stays early armed => rfl
    | beginRound ready requested => rfl
    | beginPass armed => rfl
    | endWindow capturing late => rfl
    | nextPass settled late incomplete remaining => rfl
    | finish settled late stops => simp [settled] at quiet

theorem Consistent.pulses_le {m : Monitored} (c : m.Consistent) : m.pulses ≤ 3 := by
  have pulses := c.pulses
  have passes := c.passes
  cases phase : m.diag.phase <;> simp [phase] at pulses passes <;> omega

/-- What holds of the round in one state of a run, in each step taken from there,
and over every continuation that enters DONE no more. -/
structure RoundInvariant (m : Monitored) : Prop where
  capture : m.diag.captureActive = true ↔ m.diag.phase = .capturing
  request : m.diag.request = true → m.diag.phase = .idle ∨ m.diag.phase = .done
  startIgnored : m.diag.phase ≠ .idle → m.diag.phase ≠ .done → m.diag.start = m.diag
  pulses : m.pulses = m.diag.pass.toNat +
    if m.diag.phase = .capturing ∨ m.diag.phase = .settle then 1 else 0
  atMostThree : m.pulses ≤ 3
  window : ∀ e, m.Timely e → m.diag.phase = .capturing →
    ((machine.step m e).1.diag.phase ≠ .capturing ↔
      ∃ t snap bs, e = .tick t snap bs ∧ m.passBegan + 8000 ≤ t)
  frozen : ∀ e, m.Timely e → m.EntersDone e →
    let result := (machine.step m e).1.diag.result
    1 ≤ result.passesRun.toNat ∧ result.passesRun.toNat ≤ 3 ∧
      (result.passesRun.toNat < 3 → ∀ p : BootPhase, bitSet result.phaseFlags p.index = true)
  resultKept : ∀ later, machine.Along (fun m e => ¬ m.EntersDone e) m later →
    (machine.final m later).diag.result = m.diag.result

/-- Every state of every timely run satisfies the round's invariant. -/
theorem round_invariant {events : List DiagEvent} (timely : machine.Along Timely initial events) :
    (machine.final initial events).RoundInvariant where
  capture := (consistent_of_run timely).capture
  request := (consistent_of_run timely).request
  startIgnored := start_of_running
  pulses := (consistent_of_run timely).pulses
  atMostThree := (consistent_of_run timely).pulses_le
  window := by
    intro e timelyStep capturing
    have c := consistent_of_run timely
    constructor
    · intro left
      cases e with
      | start => exact absurd ((phase_of_not_tick _ (by simp)).trans capturing) left
      | analyzer bi => exact absurd capturing left
      | tick t snap bs => exact ⟨t, snap, bs, rfl, (c.leaves_iff timelyStep capturing).mp left⟩
    · rintro ⟨t, snap, bs, rfl, stops⟩
      exact (c.leaves_iff timelyStep capturing).mpr stops
  frozen := fun _ _ enters => (consistent_of_run timely).entersDone enters
  resultKept := fun _ quiet =>
    machine.final_invariant _
      (fun m => m.diag.result = (machine.final initial events).diag.result)
      (fun m _ same calm => (result_of_not_entersDone m calm).trans same) rfl quiet

/-- A round whose first pass begins just before the millisecond counter wraps, up to the
settling of its second pass. -/
def wrappingRound : List DiagEvent :=
  [ .start
  , .tick (2 ^ 32 - 10) BusProbe.unpublished .reset
  , .tick (2 ^ 32 - 5) BusProbe.unpublished .reset
  , .tick (2 ^ 32 + 7994) BusProbe.unpublished .reset
  , .tick (2 ^ 32 + 7995) BusProbe.unpublished .reset
  , .tick (2 ^ 32 + 8055) BusProbe.unpublished .reset
  , .tick (2 ^ 32 + 8060) BusProbe.unpublished .reset
  , .tick (2 ^ 32 + 16060) BusProbe.unpublished .reset ]

/-- By then the detector has seen every phase. -/
def finalTick : DiagEvent :=
  .tick (2 ^ 32 + 16120) BusProbe.unpublished { BootDetect.reset with phaseFlags := 0x1FF#16 }

/-- The round ends with two passes, and the next request leaves its result alone. -/
theorem wrappingRound_invariant :
    (machine.final initial wrappingRound).RoundInvariant ∧
      (machine.final initial wrappingRound).Timely finalTick ∧
      (machine.final initial wrappingRound).EntersDone finalTick ∧
      (machine.final initial (wrappingRound ++ [finalTick])).RoundInvariant ∧
      (machine.final initial (wrappingRound ++ [finalTick])).diag.result.passesRun = 2#8 ∧
      (machine.final initial (wrappingRound ++ [finalTick, .start])).diag.result.passesRun = 2#8 :=
  ⟨round_invariant (by decide +kernel), by decide +kernel, by decide +kernel,
    round_invariant (by decide +kernel), by decide +kernel, by decide +kernel⟩

end Monitored

end MsxPulse.Firmware.BootDiag
