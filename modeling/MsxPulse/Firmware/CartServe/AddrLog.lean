import MsxPulse.Firmware.CartServe.LockStep
import MsxPulse.Library.Pio.Watch

/-!
# The read log beside the server (cart_serve.pio, alog.c)

`cart_addr_log` watches the lines that gate the other two programs and samples
GP0-31 one clock after /RD has risen, while `cart_read` still drives the data pins.
-/

namespace MsxPulse.Firmware

open Library Library.Pio

/-- `cart_addr_log` -/
def cartAddrLog : Program where
  code :=
    [ ⟨.wait false gpSltsl, none, 0⟩
    , ⟨.jmpPin 0, none, 0⟩
    , ⟨.wait true gpRd, none, 0⟩
    , ⟨.input .pins 32, none, 0⟩ ]
  wrapTarget := 0
  wrap := 3
  jmpPin := gpRd
  inBase := 0
  autopush := true
  outBase := 0
  setBase := 0
  setCount := 0
  sideBase := 0

theorem cartAddrLog_watcher : cartAddrLog.Watcher where
  autopush := rfl
  code := by simp [cartAddrLog, Op.Watches]

namespace ServeRun

variable (run : ServeRun)

/-- The position of `cart_addr_log`, started at clock 0. -/
def logPosition (n : Nat) : Position :=
  cartAddrLog.positionAt (fun k => (run.inputs k).gpio) ⟨0, 0⟩ n

/-- GP0-31 at a clock. -/
def snapshot (n : Nat) : U32 := (run.inputs n).gpio.setWidth 32

/-- A low phase of /RD that meets /SLTSL low ends at `r`. -/
def Ends (r : Nat) : Prop :=
  ∃ f, run.LowPhase f r ∧ ∃ j, f ≤ j ∧ j < r ∧ run.sltsl j = false

variable {run} {n b r : Nat}

/-- The log polls, and an access in progress, if any, begins now. -/
structure LogIdle (run : ServeRun) (n : Nat) : Prop where
  position : run.logPosition n = ⟨0, 0⟩ ∨ run.logPosition n = ⟨1, 0⟩ ∧ run.Polled n
  fresh : n = 0 ∨ ¬ run.Selected (n - 1)

/-- The log follows an open access. -/
structure LogOpen (run : ServeRun) (b n : Nat) : Prop where
  opened : run.Open b n
  position : run.logPosition n = ⟨1, 0⟩ ∧ n = b + 1 ∨ run.logPosition n = ⟨2, 0⟩

/-- Where the log is before clock `n`. -/
inductive Logging (run : ServeRun) (n : Nat) : Prop where
  | idle (idle : run.LogIdle n)
  | access (b : Nat) (access : run.LogOpen b n)
  | due (b r : Nat) (opened : run.Open b r) (rise : run.rd r = true) (now : n = r + 1)
      (position : run.logPosition n = ⟨3, 0⟩)

theorem logPosition_succ (n : Nat) :
    run.logPosition (n + 1) = cartAddrLog.move (run.inputs n).gpio (run.logPosition n) := rfl

section Moves

variable {gpio : U64}

theorem log_poll : cartAddrLog.move gpio ⟨0, 0⟩ = if gpio.getLsbD gpSltsl then ⟨0, 0⟩ else ⟨1, 0⟩ := by
  cases level : gpio.getLsbD gpSltsl <;>
    simp [Program.move, Program.follow, Program.after, cartAddrLog, level]

theorem log_check : cartAddrLog.move gpio ⟨1, 0⟩ = if gpio.getLsbD gpRd then ⟨0, 0⟩ else ⟨2, 0⟩ := by
  cases level : gpio.getLsbD gpRd <;>
    simp [Program.move, Program.follow, Program.after, cartAddrLog, level]

theorem log_wait : cartAddrLog.move gpio ⟨2, 0⟩ = if gpio.getLsbD gpRd then ⟨3, 0⟩ else ⟨2, 0⟩ := by
  cases level : gpio.getLsbD gpRd <;>
    simp [Program.move, Program.follow, Program.after, cartAddrLog, level]

theorem log_sample : cartAddrLog.move gpio ⟨3, 0⟩ = ⟨0, 0⟩ := by
  simp [Program.move, Program.follow, Program.after, cartAddrLog]

theorem log_samples : cartAddrLog.Sampling ⟨3, 0⟩ := by decide

theorem log_quiet {pc : Nat} (before : pc < 3) : ¬ cartAddrLog.Sampling ⟨pc, 0⟩ := by
  match pc with
  | 0 => decide
  | 1 => decide
  | 2 => decide

end Moves

section Steps

theorem LogIdle.quiet (idle : run.LogIdle n) : ¬ cartAddrLog.Sampling (run.logPosition n) := by
  rcases idle.position with here | ⟨here, -⟩ <;> rw [here]
  · exact log_quiet (by decide)
  · exact log_quiet (by decide)

theorem LogOpen.quiet (open_ : run.LogOpen b n) :
    ¬ cartAddrLog.Sampling (run.logPosition n) := by
  rcases open_.position with ⟨here, -⟩ | here <;> rw [here]
  · exact log_quiet (by decide)
  · exact log_quiet (by decide)

/-- Polling goes on while the lines are not both low. -/
theorem LogIdle.stay (idle : run.LogIdle n) (wave : run.Waveform) (unselected : ¬ run.Selected n) :
    run.LogIdle (n + 1) := by
  refine ⟨?_, .inr unselected⟩
  rw [logPosition_succ]
  rcases idle.position with here | ⟨here, polled⟩ <;> rw [here]
  · rw [log_poll]
    cases low : run.sltsl n with
    | true => exact .inl (if_pos low)
    | false => exact .inr ⟨if_neg (by simpa [sltsl] using low), polled_succ low⟩
  · rw [log_check]
    exact .inl (if_pos (wave.no_false_start polled idle.fresh unselected))

/-- The first clock with both lines low opens an access. -/
theorem LogIdle.opens (idle : run.LogIdle n) (wave : run.Waveform) (selected : run.Selected n) :
    run.LogOpen n (n + 1) := by
  refine ⟨⟨Nat.lt_succ_self n, wave.access n selected idle.fresh, ?_⟩, ?_⟩
  · intro j after before
    have same : j = n := by omega
    exact same ▸ selected.2
  · rw [logPosition_succ]
    rcases idle.position with here | ⟨here, -⟩ <;> rw [here]
    · rw [log_poll]
      exact .inl ⟨if_neg (by rw [show (run.inputs n).gpio.getLsbD gpSltsl = false from selected.1]; decide), rfl⟩
    · rw [log_check]
      exact .inr (if_neg (by rw [show (run.inputs n).gpio.getLsbD gpRd = false from selected.2]; decide))

theorem LogOpen.stay (open_ : run.LogOpen b n) (low : run.rd n = false) :
    run.LogOpen b (n + 1) := by
  have line : ¬ (run.inputs n).gpio.getLsbD gpRd = true := by
    rw [show (run.inputs n).gpio.getLsbD gpRd = false from low]
    decide
  refine ⟨open_.opened.extend low, .inr ?_⟩
  rw [logPosition_succ]
  rcases open_.position with ⟨here, -⟩ | here <;> rw [here]
  · rw [log_check, if_neg line]
  · rw [log_wait, if_neg line]

/-- When /RD rises, the sample is due at the next clock. -/
theorem LogOpen.rises (open_ : run.LogOpen b n) (rise : run.rd n = true) :
    run.logPosition (n + 1) = ⟨3, 0⟩ := by
  have span := open_.opened.span rise
  have here : run.logPosition n = ⟨2, 0⟩ := open_.position.resolve_left (by omega)
  rw [logPosition_succ, here, log_wait]
  exact if_pos rise

/-- /RD stays high while the log samples. -/
theorem Open.high_after (opened : run.Open b r) (wave : run.Waveform) (rise : run.rd r = true)
    {j : Nat} (soon : j < 16) : run.rd (r + j) = true := by
  have before : 0 < r := Nat.zero_lt_of_lt opened.after
  have low : run.rd (r - 1) = false :=
    opened.low (r - 1) (Nat.le_sub_one_of_lt opened.after) (Nat.sub_lt before Nat.one_pos)
  exact wave.recovery r before low rise j soon

theorem Logging.step (logging : run.Logging n) (wave : run.Waveform) : run.Logging (n + 1) := by
  cases logging with
  | idle idle =>
    by_cases selected : run.Selected n
    · exact .access n (idle.opens wave selected)
    · exact .idle (idle.stay wave selected)
  | access b access =>
    cases rise : run.rd n with
    | false => exact .access b (access.stay rise)
    | true => exact .due b n access.opened rise rfl (access.rises rise)
  | due b r opened rise now position =>
    refine .idle ⟨.inl ?_, .inr fun selected => ?_⟩
    · rw [logPosition_succ, position, log_sample]
    · have high := opened.high_after wave rise (show 1 < 16 by decide)
      rw [now] at selected
      exact absurd (high.symm.trans selected.2) (by decide)

theorem logging (wave : run.Waveform) (n : Nat) : run.Logging n := by
  induction n with
  | zero => exact .idle ⟨.inl rfl, .inl rfl⟩
  | succ n ih => exact ih.step wave

/-- The log polls when a low phase begins. -/
theorem Logging.idle_of_lowPhase {f : Nat} (logging : run.Logging f) (wave : run.Waveform)
    (phase : run.LowPhase f r) : run.LogIdle f := by
  have low := phase.low f (Nat.le_refl f) phase.nonempty
  cases logging with
  | idle idle => exact idle
  | access b access =>
    have positive := Nat.zero_lt_of_lt access.opened.after
    have before := access.opened.low (f - 1) (Nat.le_sub_one_of_lt access.opened.after)
      (Nat.sub_lt positive Nat.one_pos)
    rcases phase.begins with zero | rise
    · omega
    · exact absurd (before.symm.trans rise) (by decide)
  | due b r' opened rise now position =>
    have high := opened.high_after wave rise (show 1 < 16 by decide)
    rw [← now] at high
    exact absurd (high.symm.trans low) (by decide)

/-- Inside a low phase either no access has been opened yet, or one is open. -/
theorem LogIdle.lowPhase {f : Nat} (idle : run.LogIdle f) (wave : run.Waveform) (after : f ≤ n)
    (low : ∀ j, f ≤ j → j < n → run.rd j = false) :
    run.LogIdle n ∧ (∀ j, f ≤ j → j < n → ¬ run.Selected j) ∨ ∃ b, f ≤ b ∧ run.LogOpen b n := by
  induction n, after using Nat.le_induction with
  | base => exact .inl ⟨idle, fun j after before => absurd before (Nat.not_lt.mpr after)⟩
  | succ n after ih =>
    have here := low n after (Nat.lt_succ_self n)
    rcases ih fun j hj before => low j hj (Nat.lt_succ_of_lt before) with
      ⟨now, unselected⟩ | ⟨b, within, open_⟩
    · by_cases selected : run.Selected n
      · exact .inr ⟨n, after, now.opens wave selected⟩
      · refine .inl ⟨now.stay wave selected, fun j hj before => ?_⟩
        rcases Nat.lt_succ_iff_lt_or_eq.mp before with earlier | rfl
        · exact unselected j hj earlier
        · exact selected
    · exact .inr ⟨b, within, open_.stay here⟩

/-- Every clock with /RD low belongs to a low phase that has begun. -/
theorem exists_begin (low : run.rd n = false) :
    ∃ f ≤ n, (∀ j, f ≤ j → j ≤ n → run.rd j = false) ∧ (f = 0 ∨ run.rd (f - 1) = true) := by
  induction n with
  | zero =>
    refine ⟨0, Nat.le_refl 0, fun j _ le => ?_, .inl rfl⟩
    rw [Nat.le_zero.mp le]
    exact low
  | succ n ih =>
    cases before : run.rd n with
    | true =>
      refine ⟨n + 1, Nat.le_refl _, fun j after le => ?_, .inr before⟩
      rw [Nat.le_antisymm le after]
      exact low
    | false =>
      obtain ⟨f, le, lows, begins⟩ := ih before
      refine ⟨f, Nat.le_succ_of_le le, fun j after until_ => ?_, begins⟩
      rcases Nat.le_succ_iff.mp until_ with earlier | rfl
      · exact lows j after earlier
      · exact low

theorem Open.ends (opened : run.Open b r) (rise : run.rd r = true) : run.Ends r := by
  have selected := opened.selected_of_lt (Nat.le_refl b) (Nat.lt_add_of_pos_right (by decide))
  obtain ⟨f, le, lows, begins⟩ := exists_begin selected.2
  refine ⟨f, ⟨Nat.lt_of_le_of_lt le opened.after, ?_, rise, begins⟩, b, le, opened.after,
    selected.1⟩
  intro j after before
  rcases Nat.le_total j b with early | late
  · exact lows j after early
  · exact opened.low j late before

/-- The log samples exactly one clock after the end of each low phase that met
/SLTSL low. -/
theorem cartAddrLog_samplesAt (wave : run.Waveform) :
    cartAddrLog.SamplesAt (fun k => (run.inputs k).gpio) ⟨0, 0⟩
      (fun n => ∃ r, n = r + 1 ∧ run.Ends r) := by
  intro n
  constructor
  · intro sampling
    cases logging wave n with
    | idle idle => exact absurd sampling idle.quiet
    | access b access => exact absurd sampling access.quiet
    | due b r opened rise now position => exact ⟨r, now, opened.ends rise⟩
  · rintro ⟨r, rfl, f, phase, j, after, before, sltsl⟩
    have idle := (logging wave f).idle_of_lowPhase wave phase
    have le := Nat.le_of_lt phase.nonempty
    rcases idle.lowPhase wave le phase.low with ⟨-, unselected⟩ | ⟨b, -, open_⟩
    · exact absurd ⟨sltsl, phase.low j after before⟩ (unselected j after before)
    · have position := open_.rises phase.ends
      show cartAddrLog.Sampling (run.logPosition (r + 1))
      rw [position]
      exact log_samples

end Steps

/-! ## From a later clock on -/

section Behind

variable {c f : Nat}

variable (run) in
/-- The run as a log sees it that is armed before clock `c`. -/
def behind (c : Nat) : ServeRun := { run with inputs := fun n => run.inputs (c + n) }

/-- No access is under way before clock `c`. -/
def Clear (run : ServeRun) (c : Nat) : Prop := c = 0 ∨ run.rd (c - 1) = true

theorem Waveform.behind (wave : run.Waveform) (clear : run.Clear c) : (run.behind c).Waveform where
  recovery r after low rise j soon := by
    have before : c + r - 1 = c + (r - 1) := by omega
    have high := wave.recovery (c + r) (by omega) (by rw [before]; exact low) rise j soon
    rwa [Nat.add_assoc] at high
  access b selected fresh j soon := by
    have begins : c + b = 0 ∨ ¬ run.Selected (c + b - 1) := by
      rcases Nat.eq_zero_or_pos b with rfl | after
      · refine clear.imp (fun zero => zero) fun high selected => ?_
        exact Bool.false_ne_true (selected.2.symm.trans high)
      · refine .inr ?_
        rw [show c + b - 1 = c + (b - 1) by omega]
        exact fresh.resolve_left (Nat.ne_of_gt after)
    have held := wave.access (c + b) selected begins j soon
    rwa [Nat.add_assoc] at held
  settled f after high low m positive le near := by
    have first : c + f - 1 = c + (f - 1) := by omega
    have second : c + m - 1 = c + (m - 1) := by omega
    have stays := wave.settled (c + f) (by omega) (by rw [first]; exact high) low (c + m) (by omega)
      (by omega) (by omega)
    rwa [second] at stays

theorem lowPhase_behind (clear : run.Clear c) :
    (run.behind c).LowPhase f r ↔ run.LowPhase (c + f) (c + r) := by
  have before (after : 0 < f) : c + f - 1 = c + (f - 1) := by omega
  constructor
  · intro phase
    refine ⟨Nat.add_lt_add_left phase.nonempty c, fun j after until_ => ?_, phase.ends, ?_⟩
    · obtain ⟨k, rfl⟩ := Nat.exists_eq_add_of_le (Nat.le_trans (Nat.le_add_right c f) after)
      exact phase.low k (Nat.le_of_add_le_add_left after) (Nat.lt_of_add_lt_add_left until_)
    · rcases Nat.eq_zero_or_pos f with rfl | after
      · exact clear
      · refine .inr ?_
        rw [before after]
        exact phase.begins.resolve_left (Nat.ne_of_gt after)
  · intro phase
    refine ⟨Nat.lt_of_add_lt_add_left phase.nonempty, fun j after until_ => ?_, phase.ends, ?_⟩
    · exact phase.low (c + j) (Nat.add_le_add_left after c) (Nat.add_lt_add_left until_ c)
    · rcases Nat.eq_zero_or_pos f with rfl | after
      · exact .inl rfl
      · refine .inr ?_
        have high := phase.begins.resolve_left (by omega)
        rwa [before after] at high

/-- A low phase that ends after a clear clock has begun after it. -/
theorem Clear.le_of_lowPhase (clear : run.Clear c) (phase : run.LowPhase f r) (ends : c ≤ r) :
    c ≤ f := by
  refine Nat.le_of_not_lt fun begun => ?_
  have high := clear.resolve_left (by omega)
  have low := phase.low (c - 1) (by omega) (by omega)
  exact Bool.false_ne_true (low.symm.trans high)

theorem ends_behind (clear : run.Clear c) : (run.behind c).Ends r ↔ run.Ends (c + r) := by
  constructor
  · rintro ⟨f, phase, j, after, before, low⟩
    exact ⟨c + f, (lowPhase_behind clear).mp phase, c + j, Nat.add_le_add_left after c,
      Nat.add_lt_add_left before c, low⟩
  · rintro ⟨f, phase, j, after, before, low⟩
    have begun := clear.le_of_lowPhase phase (Nat.le_add_right c r)
    obtain ⟨f, rfl⟩ := Nat.exists_eq_add_of_le begun
    obtain ⟨j, rfl⟩ := Nat.exists_eq_add_of_le (Nat.le_trans begun after)
    exact ⟨f, (lowPhase_behind clear).mpr phase, j, Nat.le_of_add_le_add_left after,
      Nat.lt_of_add_lt_add_left before, low⟩

end Behind

end ServeRun

end MsxPulse.Firmware
