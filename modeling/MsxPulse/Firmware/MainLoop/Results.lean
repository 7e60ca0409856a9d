import MsxPulse.Firmware.BootDiag.Deadline
import MsxPulse.Firmware.MainLoop
import MsxPulse.Library.Timer

/-!
# A requested round ends in its results (main.c, boot_diag.c, ui.c)

As long as the loop of a board whose OLED answered keeps turning and nobody sends BOOT or
UPDATE, the progress page is replaced by the results of a round that ended after it was
opened, within a time that depends on nothing but how late the iterations come.
-/

namespace MsxPulse.Firmware

open Library

theorem BootDiag.Timed.start {d : BootDiag} {now : Nat} (timed : d.Timed now) :
    d.start.Timed now := by
  rw [start_eq]
  exact ⟨timed.passes, timed.window, timed.settling⟩

theorem BootDiag.Timed.feed {d : BootDiag} {now : Nat} (timed : d.Timed now) (bi : BusIntegrity) :
    { d with bi := bi }.Timed now :=
  ⟨timed.passes, timed.window, timed.settling⟩

theorem BootDiag.EndsBy.feed {d : BootDiag} {gap end_ now : Nat} (ends : EndsBy gap end_ d now)
    (bi : BusIntegrity) : EndsBy gap end_ { d with bi := bi } now := by
  cases ends with
  | asked ready requested le => exact .asked ready requested le
  | begins begins few le => exact .begins begins few le
  | captures began capturing few waits le => exact .captures began capturing few waits le
  | settles stopped settled few waits le => exact .settles stopped settled few waits le

namespace MainLoop

/-- What holds between iterations while the loop runs. -/
structure Sound (s : MainLoop) : Prop where
  display : s.displayState = .monitoring
  awaiting : s.menu.Awaiting
  timed : s.menu.diag.Timed s.now
  asked : s.menu.ui.diagView = .progress → s.menu.diag.phase = .idle → s.menu.diag.request = true
  oled : ∃ shown, Since s.lastOledMs shown s.now ∧
    (s.menu.ui.diagView = .progress → s.now < shown + 100)
  rails : ∃ polled, Since s.lastRailUpdateMs polled s.now

variable {s : MainLoop} {i : MainInput} {gap : Nat}

theorem initial_sound (oledPresent : Bool) {now : Nat} (booted : now < 2 ^ 31) :
    (initial oledPresent now).Sound where
  display := rfl
  awaiting := Ui.Loop.initial_awaiting
  timed := ⟨fun _ => Nat.zero_le 2, by simp [initial, Ui.Loop.initial, BootDiag.initial],
    by simp [initial, Ui.Loop.initial, BootDiag.initial]⟩
  asked := by simp [initial, Ui.Loop.initial, Ui.initial]
  oled := ⟨0, ⟨rfl, Nat.zero_le now, by rwa [Nat.zero_add]⟩,
    by simp [initial, Ui.Loop.initial, Ui.initial]⟩
  rails := ⟨0, rfl, Nat.zero_le now, by rwa [Nat.zero_add]⟩

theorem awaiting_withFault {m : Ui.Loop} (awaiting : m.Awaiting) (fault : Bool) :
    (withFault m fault).Awaiting := ⟨awaiting.request, awaiting.progress⟩

/-- The round after an iteration. -/
theorem step_diag (m : Ui.Loop) (it : Ui.Iteration) :
    (Ui.Loop.machine.step m it).1.diag =
      if m.ui.RunsDiag it.btn ∨ it.boot = true then (m.tick it).diag.start else (m.tick it).diag :=
  (Ui.Loop.render_diag _ _).trans (Ui.Loop.beforeRender_diag m it)

theorem step_progress {m : Ui.Loop} {it : Ui.Iteration}
    (progress : (Ui.Loop.machine.step m it).1.ui.diagView = .progress) :
    m.ui.diagView = .progress ∨ m.ui.RunsDiag it.btn :=
  (Ui.Loop.beforeRender_progress m it).mp (Ui.Loop.render_stays progress)

theorem render_progress_iff {m : Ui.Loop} {it : Ui.Iteration} (progress : m.ui.diagView = .progress) :
    (m.render it).ui.diagView = .progress ↔ ¬ (it.render = true ∧ m.diag.phase = .done) := by
  cases shown : it.render with
  | false => simp [Ui.Loop.render, shown, progress]
  | true => simp [Ui.Loop.render, shown, Ui.render_progress, progress]

theorem tick_idle {m : Ui.Loop} {it : Ui.Iteration} (idle : (m.tick it).diag.phase = .idle) :
    m.diag.phase = .idle ∧ m.diag.request = false := by
  have outcome := BootDiag.tick_outcome { m.diag with bi := it.bi } it.snap it.bs it.nowMs
  simp only [Ui.Loop.tick] at idle
  generalize { m.diag with bi := it.bi }.tick it.snap it.bs it.nowMs = next at outcome idle
  cases outcome with
  | wait stays early armed => exact ⟨idle, stays (.inl idle)⟩
  | beginRound ready requested => exact absurd idle (by simp)
  | beginPass armed => exact absurd idle (by simp)
  | endWindow capturing late => exact absurd idle (by simp)
  | nextPass settled late incomplete remaining => exact absurd idle (by simp)
  | finish settled late stops => exact absurd idle (by simp)

/-- An iteration keeps the loop sound. -/
theorem Sound.body (sound : s.Sound) (running : s.halted = false) (paced : s.Paced gap i)
    (slow : gap + 8000 < 2 ^ 31) (noUpdate : i.isUpdate = false) : (s.body i).Sound := by
  obtain ⟨forward, soon⟩ := paced
  obtain ⟨shown, since, -⟩ := sound.oled
  obtain ⟨polled, railsSince⟩ := sound.rails
  have timed : (Ui.Loop.machine.step s.menu (s.asked i)).1.diag.Timed i.timeMs := by
    have ticked : (s.menu.tick (s.asked i)).diag.Timed i.timeMs :=
      (sound.timed.feed i.bi).tick forward soon slow
    rw [step_diag]
    split
    · exact ticked.start
    · exact ticked
  have refreshed : s.oledDue i ↔ shown + 100 ≤ i.timeMs :=
    since.due_iff forward (by omega) (by decide)
  have polledNow : s.railsDue i ↔ polled + 500 ≤ i.timeMs :=
    railsSince.due_iff forward (by omega) (by decide)
  rw [body_eq s i sound.display running, noUpdate]
  refine ⟨rfl, awaiting_withFault (sound.awaiting.step _) _, timed, ?_, ?_, ?_⟩
  · intro progress idle
    show (Ui.Loop.machine.step s.menu (s.asked i)).1.diag.request = true
    have phase : (Ui.Loop.machine.step s.menu (s.asked i)).1.diag.phase = .idle := idle
    rw [step_diag] at phase ⊢
    by_cases pressed : s.menu.ui.RunsDiag (s.asked i).btn
    · rw [if_pos (.inl pressed)] at phase ⊢
      rw [BootDiag.start_phase] at phase
      simp [BootDiag.start_request, phase]
    · have open_ := (step_progress progress).resolve_right pressed
      have before : (s.menu.tick (s.asked i)).diag.phase = .idle := by
        split at phase
        · rwa [BootDiag.start_phase] at phase
        · exact phase
      obtain ⟨idle, quiet⟩ := tick_idle before
      exact absurd ((sound.asked open_ idle).symm.trans quiet) (by decide)
  · by_cases due : s.oledDue i
    · refine ⟨i.timeMs, ?_, fun _ => Nat.lt_add_of_pos_right (by decide)⟩
      show Since (if false = false ∧ s.oledDue i then _ else _) i.timeMs i.timeMs
      rw [if_pos ⟨rfl, due⟩]
      exact since_now i.timeMs
    · have early := Nat.lt_of_not_le (mt refreshed.mpr due)
      refine ⟨shown, ?_, fun _ => early⟩
      show Since (if false = false ∧ s.oledDue i then _ else _) shown i.timeMs
      rw [if_neg fun h => due h.2]
      exact since.keep forward early (by decide)
  · by_cases due : s.railsDue i
    · refine ⟨i.timeMs, ?_⟩
      rw [if_pos due]
      exact since_now i.timeMs
    · refine ⟨polled, ?_⟩
      rw [if_neg due]
      exact railsSince.keep forward (Nat.lt_of_not_le (mt polledNow.mpr due)) (by decide)

/-- The results are shown of a round that is over, with none pending, and that has ended
since the progress page was opened. -/
def ShowsFresh (s : MainLoop) : Prop :=
  s.menu.ui.diagView = .results ∧ s.menu.diag.phase = .done ∧ s.menu.diag.request = false ∧
    s.menu.fresh = true

/-- The progress page waits for results that will be shown until `end_ + 100`. -/
structure Pending (gap end_ : Nat) (s : MainLoop) : Prop where
  sound : s.Sound
  running : s.halted = false
  present : s.oledPresent = true
  progress : s.menu.ui.diagView = .progress
  ends : BootDiag.EndsBy gap end_ s.menu.diag s.now ∨
    s.menu.diag.phase = .done ∧ s.menu.diag.request = false ∧
      ∃ shown ≤ end_, Since s.lastOledMs shown s.now ∧ s.now < shown + 100

theorem Pending.now_lt {end_ : Nat} (pending : s.Pending gap end_) : s.now < end_ + 100 := by
  rcases pending.ends with ends | ⟨-, -, shown, le, -, early⟩
  · have le := ends.now_le
    omega
  · omega

/-- An iteration that comes in time and brings neither BOOT nor UPDATE. -/
def Undisturbed (gap : Nat) (s : MainLoop) (i : MainInput) : Prop :=
  s.Paced gap i ∧ i.isBoot = false ∧ i.isUpdate = false

instance (gap : Nat) (s : MainLoop) (i : MainInput) : Decidable (s.Undisturbed gap i) :=
  inferInstanceAs (Decidable (_ ∧ _))

theorem Pending.step {end_ : Nat} (pending : s.Pending gap end_) (undisturbed : s.Undisturbed gap i)
    (slow : gap + 8000 < 2 ^ 31) :
    (machine.step s i).1.ShowsFresh ∨ (machine.step s i).1.Pending gap end_ := by
  obtain ⟨paced, noBoot, noUpdate⟩ := undisturbed
  obtain ⟨sound, running, present, progress, ends⟩ := pending
  obtain ⟨forward, soon⟩ := paced
  have next : (machine.step s i).1 = s.body i := by simp [machine, running]
  rw [next]
  have sound' := sound.body running ⟨forward, soon⟩ slow noUpdate
  -- the menu ignores buttons in PROGRESS, so the tick alone moves the round
  have unpressed : ¬ s.menu.ui.RunsDiag (s.asked i).btn := fun pressed =>
    absurd (progress.symm.trans pressed.2.1) (by decide)
  have quiet : (s.menu.tick (s.asked i)).diag.request = false :=
    sound.awaiting.tick_request (s.asked i)
  have diag : (Ui.Loop.machine.step s.menu (s.asked i)).1.diag = (s.menu.tick (s.asked i)).diag := by
    rw [step_diag, if_neg]
    rintro (pressed | asked)
    · exact unpressed pressed
    · exact absurd (noBoot.symm.trans asked) (by decide)
  have open_ : (s.menu.beforeRender (s.asked i)).ui.diagView = .progress :=
    (Ui.Loop.beforeRender_progress _ _).mpr (.inl progress)
  have phase := Ui.Loop.beforeRender_phase s.menu (s.asked i)
  have refreshes : (s.asked i).render = true ↔ s.oledDue i := by
    simp [asked, noUpdate, present]
  rw [body_eq s i sound.display running] at sound' ⊢
  by_cases shows : (s.asked i).render = true ∧ (s.menu.tick (s.asked i)).diag.phase = .done
  · have switched := (Ui.Loop.render_results_iff open_).mpr ⟨shows.1, phase.trans shows.2⟩
    have calm : ¬ Ui.Loop.Rushed s.menu (s.asked i) := by
      rintro ⟨-, -, pressed | ⟨asked, -⟩⟩
      · exact unpressed pressed
      · exact absurd (noBoot.symm.trans asked) (by decide)
    have fresh := ((sound.awaiting.handover_iff (s.asked i)).mpr calm open_ switched).2.2
    refine .inl ⟨switched, ?_, ?_, ?_⟩
    · exact (congrArg BootDiag.phase diag).trans shows.2
    · exact (congrArg BootDiag.request diag).trans quiet
    · exact (Ui.Loop.render_fresh _ _).trans fresh
  · have stays := (render_progress_iff open_).mpr fun h => shows ⟨h.1, phase ▸ h.2⟩
    refine .inr ⟨sound', noUpdate, present, stays, ?_⟩
    show BootDiag.EndsBy gap end_ (Ui.Loop.machine.step s.menu (s.asked i)).1.diag i.timeMs ∨
      (Ui.Loop.machine.step s.menu (s.asked i)).1.diag.phase = .done ∧
        (Ui.Loop.machine.step s.menu (s.asked i)).1.diag.request = false ∧ _
    rw [diag]
    rcases ends with ends | ⟨done, none, shown, le, since, early⟩
    · rcases (ends.feed i.bi).tick forward soon slow with ⟨done, le⟩ | later
      · obtain ⟨shown, since, recent⟩ := sound'.oled
        exact .inr ⟨done, quiet, shown, Nat.le_trans since.past le, since, recent stays⟩
      · exact .inl later
    · have ended : (s.menu.tick (s.asked i)).diag.phase = .done := by
        show ({ s.menu.diag with bi := i.bi }.tick _ _ _).1.phase = .done
        simp [BootDiag.tick, BootDiag.tickIdle, done, none]
      have notDue : ¬ s.oledDue i := fun due => shows ⟨refreshes.mpr due, ended⟩
      have before : i.timeMs < shown + 100 := by
        refine Nat.lt_of_not_le fun late => notDue ?_
        exact (since.due_iff forward (by omega) (by decide)).mpr late
      refine .inr ⟨ended, quiet, shown, le, ?_, before⟩
      show Since (if i.isUpdate = false ∧ s.oledDue i then _ else _) shown i.timeMs
      rw [if_neg fun h => notDue h.2]
      exact since.keep forward before (by decide)

theorem Sound.step (sound : s.Sound) (running : s.halted = false) (paced : s.Paced gap i)
    (slow : gap + 8000 < 2 ^ 31) (noUpdate : i.isUpdate = false) :
    (machine.step s i).1.Sound ∧ (machine.step s i).1.halted = false ∧
      (machine.step s i).1.oledPresent = s.oledPresent := by
  have next : (machine.step s i).1 = s.body i := by simp [machine, running]
  rw [next]
  refine ⟨sound.body running paced slow noUpdate, ?_, ?_⟩
  · rw [body_eq s i sound.display running]
    exact noUpdate
  · rw [body_eq s i sound.display running]

/-- The longest that a progress page can stay open. -/
def waitMs (gap : Nat) : Nat := gap + 3 * BootDiag.passMs gap + 100

/-- An open progress page is pending. -/
theorem Sound.pending (sound : s.Sound) (running : s.halted = false) (present : s.oledPresent = true)
    (progress : s.menu.ui.diagView = .progress) :
    s.Pending gap (s.now + gap + 3 * BootDiag.passMs gap) := by
  refine ⟨sound, running, present, progress, ?_⟩
  by_cases ended : s.menu.diag.phase = .done ∧ s.menu.diag.request = false
  · obtain ⟨shown, since, recent⟩ := sound.oled
    have le : shown ≤ s.now + gap + 3 * BootDiag.passMs gap := by
      have past := since.past
      omega
    exact .inr ⟨ended.1, ended.2, shown, le, since, recent progress⟩
  · refine .inl (sound.timed.endsBy ?_ (Nat.le_refl _))
    rintro (idle | done)
    · exact sound.asked progress idle
    · exact Bool.of_not_eq_false fun none => ended ⟨done, none⟩

/-- Iterations in time, with no UPDATE among them, keep the loop sound. -/
theorem sound_final {now : Nat} {before : List MainInput} (slow : gap + 8000 < 2 ^ 31)
    (booted : now < 2 ^ 31)
    (paced : machine.Along (fun s i => s.Paced gap i ∧ i.isUpdate = false) (initial true now)
      before) :
    (machine.final (initial true now) before).Sound ∧
      (machine.final (initial true now) before).halted = false ∧
      (machine.final (initial true now) before).oledPresent = true := by
  refine machine.final_invariant _
    (fun s => s.Sound ∧ s.halted = false ∧ s.oledPresent = true) ?_ ?_ paced
  · rintro s i ⟨sound, running, present⟩ ⟨inTime, noUpdate⟩
    obtain ⟨sound', running', kept⟩ := sound.step running inTime slow noUpdate
    exact ⟨sound', running', kept.trans present⟩
  · exact ⟨initial_sound true booted, rfl, rfl⟩

/-- On a board whose OLED answered, whatever led to an open progress page, iterations that come
in time bring the results of a round that has ended since, within the time of three passes. -/
theorem results_in_time {now : Nat} {before later : List MainInput} (slow : gap + 8000 < 2 ^ 31)
    (booted : now < 2 ^ 31)
    (paced : machine.Along (fun s i => s.Paced gap i ∧ i.isUpdate = false) (initial true now)
      before)
    (progress : (machine.final (initial true now) before).menu.ui.diagView = .progress)
    (undisturbed : machine.Along (Undisturbed gap) (machine.final (initial true now) before) later)
    (long : (machine.final (initial true now) before).now + waitMs gap ≤
      (machine.final (initial true now) (before ++ later)).now) :
    ∃ first i rest, later = first ++ i :: rest ∧
      i.timeMs < (machine.final (initial true now) before).now + waitMs gap + gap ∧
      (machine.final (initial true now) (before ++ first)).menu.ui.diagView = .progress ∧
      (machine.final (initial true now) (before ++ first ++ [i])).ShowsFresh := by
  obtain ⟨sound, running, present⟩ := sound_final slow booted paced
  rw [machine.final_append] at long
  generalize opened : machine.final (initial true now) before = s at *
  have reached := machine.goal_or_pending (Undisturbed gap)
    (Pending gap (s.now + gap + 3 * BootDiag.passMs gap)) ShowsFresh
    (fun s i pending allowed => pending.step allowed slow)
    (sound.pending running present progress) undisturbed
  rcases reached with ⟨first, i, rest, rfl, pending, fresh⟩ | pending
  · refine ⟨first, i, rest, rfl, ?_, ?_, ?_⟩
    · have inTime := ((machine.along_append _ _ _ _).mp undisturbed).2.1.1.2
      have before := pending.now_lt
      unfold waitMs
      omega
    · rw [machine.final_append, opened]
      exact pending.progress
    · rw [List.append_assoc, machine.final_append, opened]
      exact fresh
  · have before := pending.now_lt
    unfold waitMs at long
    omega

/-- An iteration at `timeMs` in which all nine phases have been seen. -/
def complete (timeMs : Nat) (btn : BtnEvent) : MainInput where
  timeMs := timeMs
  snap := BusProbe.unpublished
  bs := { BootDetect.reset with phaseFlags := 0x1FF#16 }
  bi := .reset
  rails := ⟨0#8, 0#8, 0#8⟩
  btn := btn
  cmd := none

/-- "Run boot diag" within 3 ms of the first iteration. -/
def opening : List MainInput := [complete 1 .select, complete 2 .up, complete 3 .select]

/-- An iteration every 4 s. -/
def sluggish : List MainInput := (List.range 17).map fun k => complete (4000 * (k + 1)) .none

theorem results_in_time_sluggish : ∃ first i rest, sluggish = first ++ i :: rest ∧
    i.timeMs < 3 + waitMs 4000 + 4000 ∧
    (machine.final (initial true 1) (opening ++ first)).menu.ui.diagView = .progress ∧
    (machine.final (initial true 1) (opening ++ first ++ [i])).ShowsFresh :=
  @results_in_time 4000 1 opening sluggish (by decide) (by decide) (by decide +kernel)
    (by decide +kernel) (by decide +kernel) (by decide +kernel)

end MainLoop

end MsxPulse.Firmware
