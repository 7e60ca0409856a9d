import MsxPulse.Firmware.BootDiag.Round
import MsxPulse.Firmware.Ui

/-!
# The handover from the round to the screen

One iteration of the main loop as far as the menu and the round see it: the tick,
a button event, an optional USB BOOT command and an optional refresh. `fresh` is
the observer's record that a result has been frozen since the press that opened
the PROGRESS view.
-/

namespace MsxPulse.Firmware.Ui

open Library

structure Loop where
  diag : BootDiag
  ui : Ui
  fresh : Bool

/-- Everything an iteration reads from outside; `bi` is what core 1 has made of
the read analyzer by then. -/
structure Iteration where
  nowMs : U32
  snap : BusProbeSnapshot
  bs : BootDetect
  bi : BusIntegrity
  btn : BtnEvent
  boot : Bool
  render : Bool

namespace Loop

def initial : Loop := ⟨.initial, .initial, false⟩

def tick (s : Loop) (it : Iteration) : Loop :=
  let diag := ({ s.diag with bi := it.bi }.tick it.snap it.bs it.nowMs).1
  { s with
    diag := diag
    fresh := s.fresh || (decide (s.diag.phase ≠ .done) && decide (diag.phase = .done)) }

def button (s : Loop) (it : Iteration) : Loop :=
  let pressed := s.ui.handleBtn it.btn
  { diag := if pressed.2 then s.diag.start else s.diag
    ui := pressed.1
    fresh := if pressed.2 then false else s.fresh }

def boot (s : Loop) (it : Iteration) : Loop :=
  if it.boot then { s with diag := s.diag.start } else s

def render (s : Loop) (it : Iteration) : Loop :=
  if it.render then { s with ui := s.ui.render s.diag.phase } else s

/-- The state that `ui_render` sees, if it runs. -/
def beforeRender (s : Loop) (it : Iteration) : Loop := ((s.tick it).button it).boot it

def machine : Machine Loop Iteration Unit where
  step s it := ((s.beforeRender it).render it, [])

/-- If this iteration's refresh switches PROGRESS to RESULTS, the round is over,
none is pending, and the result was frozen after the press. -/
def Handover (s : Loop) (it : Iteration) : Prop :=
  let seen := s.beforeRender it
  seen.ui.diagView = .progress → (seen.render it).ui.diagView = .results →
    seen.diag.phase = .done ∧ seen.diag.request = false ∧ seen.fresh = true

instance (s : Loop) (it : Iteration) : Decidable (Handover s it) :=
  inferInstanceAs (Decidable (_ → _ → _ ∧ _ ∧ _))

/-- The tick leaves the round in DONE: it was there with nothing pending, or its
last pass settles now. -/
def EndsDone (d : BootDiag) (it : Iteration) : Prop :=
  (d.phase = .done ∧ d.request = false) ∨
    (d.phase = .settle ∧ BootDiag.reached it.nowMs d.deadlineMs = true ∧
      (BootDiag.roundShouldStop it.bs.phaseFlags 0#16 = true ∨
        BootDiag.maxPasses ≤ d.pass + 1#8))

/-- A refresh in DONE together with a new request for a shown PROGRESS view. -/
def Rushed (s : Loop) (it : Iteration) : Prop :=
  it.render = true ∧ EndsDone s.diag it ∧
    (s.ui.RunsDiag it.btn ∨ (it.boot = true ∧ s.ui.diagView = .progress))

/-- Between iterations a PROGRESS view waits for a result that is still to come,
or already has it. -/
structure Awaiting (s : Loop) : Prop where
  request : s.diag.request = true → s.diag.phase = .idle ∨ s.diag.phase = .done
  progress : s.ui.diagView = .progress →
    s.fresh = true ∨ s.diag.phase ≠ .done ∨ s.diag.request = true

theorem initial_awaiting : initial.Awaiting where
  request := by simp [initial, BootDiag.initial]
  progress := by simp [initial, Ui.initial]

section Tick

variable {d : BootDiag} {it : Iteration}

theorem tick_done_iff :
    (d.tick it.snap it.bs it.nowMs).1.phase = .done ↔ EndsDone d it := by
  have outcome := BootDiag.tick_outcome d it.snap it.bs it.nowMs
  generalize d.tick it.snap it.bs it.nowMs = next at outcome
  unfold EndsDone
  cases outcome with
  | wait stays early armed =>
    constructor
    · intro done
      exact .inl ⟨done, stays (.inr done)⟩
    · intro ends
      rcases ends with ⟨done, -⟩ | ⟨settled, late, -⟩
      · exact done
      · rw [early (.inr settled)] at late
        exact absurd late Bool.false_ne_true
  | beginRound ready requested => rcases ready with h | h <;> simp [h, requested]
  | beginPass armed => simp [armed]
  | endWindow capturing late => simp [capturing]
  | nextPass settled late incomplete remaining =>
    have incomplete' : BootDiag.roundShouldStop it.bs.phaseFlags 0#16 = false := incomplete
    simp [settled, incomplete', BitVec.not_le.mpr remaining]
  | finish settled late stops => exact ⟨fun _ => .inr ⟨settled, late, stops⟩, fun _ => rfl⟩

/-- A tick leaves no request behind. -/
theorem tick_request (pending : d.request = true → d.phase = .idle ∨ d.phase = .done) :
    (d.tick it.snap it.bs it.nowMs).1.request = false := by
  have running : d.phase ≠ .idle → d.phase ≠ .done → d.request = false := by
    intro idle done
    rw [← Bool.not_eq_true]
    intro requested
    rcases pending requested with h | h
    · exact idle h
    · exact done h
  have outcome := BootDiag.tick_outcome d it.snap it.bs it.nowMs
  generalize d.tick it.snap it.bs it.nowMs = next at outcome
  cases outcome with
  | wait stays early armed =>
    by_cases ready : d.phase = .idle ∨ d.phase = .done
    · exact stays ready
    · rw [not_or] at ready
      exact running ready.1 ready.2
  | beginRound ready requested => rfl
  | beginPass armed => exact running (by simp [armed]) (by simp [armed])
  | endWindow capturing late => exact running (by simp [capturing]) (by simp [capturing])
  | nextPass settled late incomplete remaining => exact running (by simp [settled]) (by simp [settled])
  | finish settled late stops => exact running (by simp [settled]) (by simp [settled])

end Tick

section Iteration

variable (s : Loop) (it : Iteration)

theorem button_diag :
    (s.button it).diag = if s.ui.RunsDiag it.btn then s.diag.start else s.diag := by
  simp only [button, handleBtn_starts, decide_eq_true_eq]

theorem button_fresh : (s.button it).fresh = if s.ui.RunsDiag it.btn then false else s.fresh := by
  simp only [button, handleBtn_starts, decide_eq_true_eq]

/-- The round as the refresh sees it: ticked, and asked to start by the button or by USB. -/
theorem beforeRender_diag :
    (s.beforeRender it).diag =
      if s.ui.RunsDiag it.btn ∨ it.boot = true then (s.tick it).diag.start
      else (s.tick it).diag := by
  have pressed := button_diag (s.tick it) it
  have same : (s.tick it).ui = s.ui := rfl
  rw [same] at pressed
  unfold beforeRender boot
  by_cases press : s.ui.RunsDiag it.btn <;> cases usb : it.boot <;> simp [press, pressed]

@[simp] theorem beforeRender_phase : (s.beforeRender it).diag.phase = (s.tick it).diag.phase := by
  rw [beforeRender_diag]
  split <;> simp

theorem beforeRender_request :
    (s.beforeRender it).diag.request = ((s.tick it).diag.request ||
      decide ((s.ui.RunsDiag it.btn ∨ it.boot = true) ∧
        ((s.tick it).diag.phase = .idle ∨ (s.tick it).diag.phase = .done))) := by
  rw [beforeRender_diag]
  split
  · rename_i asked
    simp [BootDiag.start_request, asked]
  · rename_i quiet
    simp [quiet]

@[simp] theorem beforeRender_progress :
    (s.beforeRender it).ui.diagView = .progress ↔
      s.ui.diagView = .progress ∨ s.ui.RunsDiag it.btn := by
  have view : (s.beforeRender it).ui = (s.ui.handleBtn it.btn).1 := by
    unfold beforeRender boot button
    split <;> rfl
  rw [view]
  exact handleBtn_progress _ _

theorem beforeRender_fresh :
    (s.beforeRender it).fresh = if s.ui.RunsDiag it.btn then false else (s.tick it).fresh := by
  have kept : (s.beforeRender it).fresh = ((s.tick it).button it).fresh := by
    unfold beforeRender boot
    split <;> rfl
  rw [kept]
  exact button_fresh _ _

end Iteration

@[simp] theorem render_diag (s : Loop) (it : Iteration) : (s.render it).diag = s.diag := by
  unfold render
  split <;> rfl

@[simp] theorem render_fresh (s : Loop) (it : Iteration) : (s.render it).fresh = s.fresh := by
  unfold render
  split <;> rfl

theorem render_stays {s : Loop} {it : Iteration} (progress : (s.render it).ui.diagView = .progress) :
    s.ui.diagView = .progress := by
  unfold render at progress
  split at progress
  · exact ((render_progress _ _).mp progress).1
  · exact progress

theorem render_results_iff {s : Loop} {it : Iteration} (progress : s.ui.diagView = .progress) :
    (s.render it).ui.diagView = .results ↔ it.render = true ∧ s.diag.phase = .done := by
  cases shown : it.render with
  | false => simp [render, shown, progress]
  | true => simp [render, shown, render_eq_results progress]

section Awaiting

variable {s : Loop} (a : s.Awaiting) (it : Iteration)

include a

theorem Awaiting.tick_request : (s.tick it).diag.request = false := Loop.tick_request a.request

/-- If the PROGRESS view was open and the tick leaves DONE, a result has been
frozen since it was opened. -/
theorem Awaiting.tick_fresh (open_ : s.ui.diagView = .progress)
    (done : (s.tick it).diag.phase = .done) : (s.tick it).fresh = true := by
  have done' : ({ s.diag with bi := it.bi }.tick it.snap it.bs it.nowMs).1.phase = .done := done
  rcases a.progress open_ with already | notDone | requested
  · simp [Loop.tick, already]
  · simp [Loop.tick, notDone, done']
  · rcases tick_done_iff.mp done' with ⟨-, quiet⟩ | ⟨settled, -⟩
    · exact absurd requested (by simpa using quiet)
    · have running : s.diag.phase ≠ .done := fun h => by simp [h] at settled
      simp [Loop.tick, running, done']

theorem Awaiting.step : (machine.step s it).1.Awaiting := by
  have quiet := a.tick_request it
  refine ⟨?_, ?_⟩
  · intro requested
    simp only [machine, render_diag, beforeRender_request, quiet, Bool.false_or,
      decide_eq_true_eq] at requested
    simpa [machine] using requested.2
  · intro shown
    have progress := (beforeRender_progress s it).mp (render_stays shown)
    simp only [machine, render_fresh, render_diag, beforeRender_phase]
    by_cases done : (s.tick it).diag.phase = .done
    · by_cases pressed : s.ui.RunsDiag it.btn
      · exact .inr (.inr (by simp [beforeRender_request, pressed, done]))
      · have open_ := progress.resolve_right pressed
        exact .inl (by simp [beforeRender_fresh, pressed, a.tick_fresh it open_ done])
    · exact .inr (.inl done)

/-- One iteration hands over correctly unless it is rushed. -/
theorem Awaiting.handover_iff : Handover s it ↔ ¬ Rushed s it := by
  have ends : EndsDone s.diag it ↔ (s.tick it).diag.phase = .done :=
    (tick_done_iff (d := { s.diag with bi := it.bi })).symm
  have quiet := a.tick_request it
  unfold Handover Rushed
  rw [ends]
  constructor
  · intro sound rushed
    obtain ⟨shown, done, asked⟩ := rushed
    have progress : (s.beforeRender it).ui.diagView = .progress := by
      rw [beforeRender_progress]
      rcases asked with pressed | ⟨-, open_⟩
      · exact .inr pressed
      · exact .inl open_
    have phase : (s.beforeRender it).diag.phase = .done := by rw [beforeRender_phase, done]
    have settled := (sound progress ((render_results_iff progress).mpr ⟨shown, phase⟩)).2.1
    have asked' : s.ui.RunsDiag it.btn ∨ it.boot = true := asked.imp_right And.left
    rw [beforeRender_request, quiet, Bool.false_or, decide_eq_false_iff_not] at settled
    exact settled ⟨asked', .inr done⟩
  · intro calm seen progress switched
    obtain ⟨shown, phase⟩ := (render_results_iff progress).mp switched
    have done : (s.tick it).diag.phase = .done := by rw [← beforeRender_phase, phase]
    have unpressed : ¬ s.ui.RunsDiag it.btn := fun pressed => calm ⟨shown, done, .inl pressed⟩
    have open_ := ((beforeRender_progress s it).mp progress).resolve_right unpressed
    have noUsb : ¬ it.boot = true := fun usb => calm ⟨shown, done, .inr ⟨usb, open_⟩⟩
    refine ⟨phase, ?_, ?_⟩
    · show (s.beforeRender it).diag.request = false
      simp [beforeRender_request, quiet, unpressed, noUsb]
    · show (s.beforeRender it).fresh = true
      rw [beforeRender_fresh, if_neg unpressed]
      exact a.tick_fresh it open_ done

end Awaiting

/-- A run hands over correctly at every refresh exactly when none of its
iterations is rushed. -/
theorem handover_iff_not_rushed (iterations : List Iteration) :
    machine.Along Handover initial iterations ↔
      machine.Along (fun s it => ¬ Rushed s it) initial iterations :=
  machine.along_congr Awaiting (fun _ it a => a.step it) (fun _ it a => a.handover_iff it)
    initial_awaiting iterations

/-- An iteration at `nowMs` in which all nine phases have been seen. -/
def complete (nowMs : U32) (btn : BtnEvent) (render : Bool) : Iteration where
  nowMs := nowMs
  snap := BusProbe.unpublished
  bs := { BootDetect.reset with phaseFlags := 0x1FF#16 }
  bi := .reset
  btn := btn
  boot := false
  render := render

/-- A first round, its results left with SELECT, and a second "Run boot diag"
refreshed in the iteration of the press. -/
def staleResults : List Iteration :=
  [ complete 0#32 .select false, complete 1#32 .up false, complete 2#32 .select false
  , complete 3#32 .none false, complete 4#32 .none false, complete 8004#32 .none false
  , complete 8064#32 .none true
  , complete 8065#32 .select false, complete 8066#32 .select false, complete 8067#32 .up false
  , complete 8068#32 .select true ]

theorem staleResults_not_handover : ¬ machine.Along Handover initial staleResults := by
  decide +kernel

end Loop

end MsxPulse.Firmware.Ui
