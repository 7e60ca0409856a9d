import MsxPulse.Firmware.BootDiag

/-!
# The menu state machine (ui.c)

The statics that buttons and `ui_render` change. Handling a button also says
whether it called `boot_diag_start`; rendering reads the round's phase.
-/

namespace MsxPulse.Firmware

inductive BtnEvent where
  | none
  | up
  | down
  | select
  deriving DecidableEq

inductive UiLevel where
  | main
  | detail
  | settings
  deriving DecidableEq

inductive UiDiagView where
  | none
  | progress
  | results
  deriving DecidableEq

structure Ui where
  level : UiLevel
  pageIdx : Nat
  selectorIdx : Nat
  powerFault : Bool
  diagView : UiDiagView
  diagPage : Nat
  deriving DecidableEq

namespace Ui

/-- Pages of the carousel. -/
def nPages : Nat := 5
/-- `N_DIAG_PAGES` -/
def nDiagPages : Nat := 6

/-- `settings_rows[i].is_back` for "Run boot diag" and "back". -/
def settingsRows : List Bool := [false, true]

/-- `settings_rows[s_selector_idx].is_back` -/
def isBack (selectorIdx : Nat) : Bool := settingsRows.getD selectorIdx false

/-- `ui_init` over zeroed statics. -/
def initial : Ui where
  level := .main
  pageIdx := 0
  selectorIdx := 0
  powerFault := false
  diagView := .none
  diagPage := 0

def levelOfPage (pageIdx : Nat) : UiLevel := if pageIdx = 0 then .main else .detail

/-- Buttons inside the results carousel. -/
def handleResults (s : Ui) : BtnEvent → Ui
  | .down => if s.diagPage + 1 < nDiagPages then { s with diagPage := s.diagPage + 1 } else s
  | .up => if 0 < s.diagPage then { s with diagPage := s.diagPage - 1 } else s
  | .select => { s with diagView := .none, level := .main, pageIdx := 0 }
  | .none => s

/-- Buttons inside the settings level; the flag says `boot_diag_start` was called. -/
def handleSettings (s : Ui) : BtnEvent → Ui × Bool
  | .up => (if 0 < s.selectorIdx then { s with selectorIdx := s.selectorIdx - 1 } else s, false)
  | .down =>
    (if s.selectorIdx + 1 < settingsRows.length then { s with selectorIdx := s.selectorIdx + 1 }
      else s, false)
  | .select =>
    if isBack s.selectorIdx then ({ s with level := .main }, false)
    else ({ s with diagView := .progress, level := .main }, true)
  | .none => (s, false)

/-- Buttons on the dashboard carousel. -/
def handleCarousel (s : Ui) : BtnEvent → Ui
  | .down =>
    if s.pageIdx + 1 < nPages then
      { s with pageIdx := s.pageIdx + 1, level := levelOfPage (s.pageIdx + 1) }
    else s
  | .up =>
    if 0 < s.pageIdx then
      { s with pageIdx := s.pageIdx - 1, level := levelOfPage (s.pageIdx - 1) }
    else s
  | .select =>
    if s.level = .main then
      { s with selectorIdx := settingsRows.length - 1, level := .settings }
    else s
  | .none => s

/-- `ui_handle_btn`, with whether it called `boot_diag_start`. -/
def handleBtn (s : Ui) (e : BtnEvent) : Ui × Bool :=
  if e = .none then (s, false)
  else if s.diagView = .progress then (s, false)
  else if s.diagView = .results then (s.handleResults e, false)
  else if s.level = .settings then s.handleSettings e
  else (s.handleCarousel e, false)

/-- What `ui_render` does to the statics. -/
def render (s : Ui) (phase : BootDiagPhase) : Ui :=
  if s.diagView = .progress ∧ phase = .done then { s with diagView := .results, diagPage := 0 }
  else s

/-- The press on "Run boot diag". -/
def RunsDiag (s : Ui) (e : BtnEvent) : Prop :=
  e = .select ∧ s.diagView = .none ∧ s.level = .settings ∧ isBack s.selectorIdx = false

instance (s : Ui) (e : BtnEvent) : Decidable (s.RunsDiag e) :=
  inferInstanceAs (Decidable (_ ∧ _))

@[simp] theorem handleResults_diagView (s : Ui) (e : BtnEvent) :
    (s.handleResults e).diagView = if e = .select then .none else s.diagView := by
  cases e with
  | none => rfl
  | up => simp only [handleResults]; split <;> rfl
  | down => simp only [handleResults]; split <;> rfl
  | select => rfl

@[simp] theorem handleCarousel_diagView (s : Ui) (e : BtnEvent) :
    (s.handleCarousel e).diagView = s.diagView := by
  cases e <;> simp only [handleCarousel] <;> (try split) <;> rfl

theorem handleSettings_cases (s : Ui) (e : BtnEvent) :
    (s.handleSettings e).2 = decide (e = .select ∧ isBack s.selectorIdx = false) ∧
      (s.handleSettings e).1.diagView =
        if e = .select ∧ isBack s.selectorIdx = false then .progress else s.diagView := by
  cases e with
  | none => exact ⟨rfl, rfl⟩
  | up => refine ⟨rfl, ?_⟩; simp only [handleSettings]; split <;> rfl
  | down => refine ⟨rfl, ?_⟩; simp only [handleSettings]; split <;> rfl
  | select => cases back : isBack s.selectorIdx <;> simp [handleSettings, back]

/-- `boot_diag_start` is called by that press and by nothing else. -/
theorem handleBtn_starts (s : Ui) (e : BtnEvent) :
    (s.handleBtn e).2 = decide (s.RunsDiag e) := by
  by_cases quiet : e = .none
  · simp [handleBtn, RunsDiag, quiet]
  · cases view : s.diagView with
    | progress => simp [handleBtn, RunsDiag, view]
    | results => simp [handleBtn, RunsDiag, quiet, view]
    | none =>
      by_cases level : s.level = .settings
      · simp [handleBtn, RunsDiag, quiet, view, level, (handleSettings_cases s e).1]
      · simp [handleBtn, RunsDiag, quiet, view, level]

/-- PROGRESS is shown after a button exactly if it was shown before or that press opened it. -/
theorem handleBtn_progress (s : Ui) (e : BtnEvent) :
    (s.handleBtn e).1.diagView = .progress ↔ s.diagView = .progress ∨ s.RunsDiag e := by
  by_cases quiet : e = .none
  · simp [handleBtn, RunsDiag, quiet]
  · cases view : s.diagView with
    | progress => simp [handleBtn, view]
    | results =>
      have left : (s.handleResults e).diagView ≠ .progress := by
        rw [handleResults_diagView, view]
        split <;> simp
      simp [handleBtn, RunsDiag, quiet, view, left, -handleResults_diagView]
    | none =>
      by_cases level : s.level = .settings
      · simp [handleBtn, RunsDiag, quiet, view, level, (handleSettings_cases s e).2]
      · simp [handleBtn, RunsDiag, quiet, view, level]

theorem render_eq_results {s : Ui} {phase : BootDiagPhase} (progress : s.diagView = .progress) :
    (s.render phase).diagView = .results ↔ phase = .done := by
  by_cases done : phase = .done <;> simp [render, progress, done]

theorem render_progress (s : Ui) (phase : BootDiagPhase) :
    (s.render phase).diagView = .progress ↔ s.diagView = .progress ∧ phase ≠ .done := by
  unfold render
  split <;> simp_all

end Ui

end MsxPulse.Firmware
