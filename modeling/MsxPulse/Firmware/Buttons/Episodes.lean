import Mathlib.Data.Nat.Find
import MsxPulse.Firmware.Buttons.Presses
import MsxPulse.Firmware.Buttons.Taps

/-!
# Episodes of the reset combo

A round of the main loop polls the buttons and then checks the combo. The check sets a
flag that the next poll does not read, so the rounds sample and return what the polls
alone do. The latches of the combo follow the run of polls at which both buttons are
down: where it began, and whether it has been long enough.
-/

namespace MsxPulse.Firmware

open Library

/-! ## The flag of the check -/

namespace Buttons

def withConsumed (s : Buttons) (c : Bool) : Buttons :=
  { s with combo := { s.combo with consumed := c } }

theorem bothDown_consumed (c : Combo) (flag : Bool) (now : U32) : ∃ flag',
    Combo.bothDown { c with consumed := flag } now =
      { c.bothDown now with consumed := flag' } := by
  have opened : ∃ flag', Combo.openEpisode { c with consumed := flag } now =
      { c.openEpisode now with consumed := flag' } := by
    unfold Combo.openEpisode
    split
    · exact ⟨flag, rfl⟩
    · exact ⟨false, rfl⟩
  obtain ⟨kept, same⟩ := opened
  rw [Combo.bothDown, Combo.bothDown, same]
  unfold Combo.fire
  split
  · exact ⟨false, rfl⟩
  · exact ⟨kept, rfl⟩

theorem pass1_withConsumed (pins : Nat → Bool) (now : U32) (flag : Bool) (es : List Button)
    (s : Buttons) :
    pass1 pins now es (s.withConsumed flag) =
      ((pass1 pins now es s).1.withConsumed flag, (pass1 pins now es s).2) := by
  induction es generalizing s with
  | nil => rfl
  | cons e rest ih =>
    have same : debounce (s.withConsumed flag).combo e ((s.withConsumed flag).btns e)
        (pins e.gpio) now = debounce s.combo e (s.btns e) (pins e.gpio) now := rfl
    simp only [pass1, same]
    generalize debounce s.combo e (s.btns e) (pins e.gpio) now = r
    obtain ⟨b, event⟩ := r
    cases event with
    | some event => rfl
    | none => exact ih (s.set e b)

theorem pass2_withConsumed (s : Buttons) (flag : Bool) (now : U32) : ∃ flag',
    (s.withConsumed flag).pass2 now = (s.pass2 now).withConsumed flag' := by
  have combo : (s.withConsumed flag).combo = { s.combo with consumed := flag } := rfl
  have btns : (s.withConsumed flag).btns = s.btns := rfl
  obtain ⟨flag', same⟩ := bothDown_consumed s.combo flag now
  simp only [pass2, combo, btns, same]
  cases s.combo.a with
  | none => exact ⟨flag, rfl⟩
  | some a =>
    cases s.combo.b with
    | none => exact ⟨flag, rfl⟩
    | some b =>
      simp only []
      by_cases on : s.combo.holdMs > 0
      · rw [if_pos on, if_pos on]
        by_cases down : ((s.btns a).debouncedPressed now && (s.btns b).debouncedPressed now) = true
        · rw [if_pos down, if_pos down]
          exact ⟨flag', rfl⟩
        · rw [if_neg down, if_neg down]
          exact ⟨flag, rfl⟩
      · rw [if_neg on, if_neg on]
        exact ⟨flag, rfl⟩

/-- A poll neither reads the flag nor returns anything else for it. -/
theorem poll_withConsumed (s : Buttons) (flag : Bool) (pins : Nat → Bool) (now : U32) :
    ((s.withConsumed flag).poll pins now).2 = (s.poll pins now).2 ∧ ∃ flag',
      ((s.withConsumed flag).poll pins now).1 = (s.poll pins now).1.withConsumed flag' := by
  unfold poll
  rw [pass1_withConsumed]
  generalize pass1 pins now Button.all s = first
  obtain ⟨s', event⟩ := first
  cases event with
  | some event => exact ⟨rfl, flag, rfl⟩
  | none =>
    obtain ⟨flag', second⟩ := pass2_withConsumed s' flag now
    have third : ((s'.pass2 now).withConsumed flag').pass3 now = (s'.pass2 now).pass3 now := rfl
    have fourth : ((s'.pass2 now).withConsumed flag').pass4 now = (s'.pass2 now).pass4 now := rfl
    simp only [second, third, fourth]
    cases (s'.pass2 now).pass3 now with
    | some e => exact ⟨rfl, flag', rfl⟩
    | none =>
      cases (s'.pass2 now).pass4 now with
      | some e => exact ⟨rfl, flag', rfl⟩
      | none => exact ⟨rfl, flag', rfl⟩

/-- What a poll makes of the combo. -/
theorem poll_combo {s : Buttons} (h : ResetCombo s.combo) (pins : Nat → Bool) (now : U32) :
    (s.poll pins now).1.combo =
      if s.bothPressed pins now then s.combo.bothDown now
      else { s.combo with intentActive := false } := by
  have second : (({ s with btns := s.sampled pins now } : Buttons).pass2 now).combo =
      if s.bothPressed pins now then s.combo.bothDown now
      else { s.combo with intentActive := false } := by
    simp only [pass2, h.a, h.b, h.hold]
    rw [if_pos (by decide)]
    unfold bothPressed
    split
    · rfl
    · rfl
  unfold poll
  rw [pass1_eq h]
  simp only []
  split
  · exact second
  · split
    · exact second
    · exact second

/-- A button of the combo that passes the debounce has its press behind it. -/
theorem debounce_down (c : Combo) (e : Button) {b : BtnState} (armed : b.armed = true) (raw : Bool)
    (now : U32) (down : (debounce c e b raw now).1.debouncedPressed now = true) :
    (debounce c e b raw now).1.stable = false := by
  have kept : ((b.sample raw now).arm now).armed = true := by
    rw [(taken b raw now).armed, armed, Bool.true_or]
  unfold debounce at down ⊢
  simp only [kept, Bool.and_true] at down ⊢
  split_ifs at down ⊢ with pressed stable
  · rfl
  · rfl
  · rfl
  · exact Bool.eq_false_iff.mpr stable
  · exact absurd down pressed

end Buttons

namespace ButtonRun

/-! ## Rounds -/

variable (run : ButtonRun)

/-- The state before round `n`: each polls the buttons and then checks the combo. -/
def round : Nat → Buttons
  | 0 => run.before.init.setCombo (some .up) (some .down) 500
  | n + 1 => ((round n).poll (run.pins n) (run.clock n)).1.comboCheck.1

/-- What the poll of round `n` returns. -/
def roundOut (n : Nat) : Option Button := ((run.round n).poll (run.pins n) (run.clock n)).2

/-- The combo check of round `n` returns true. -/
def fires (n : Nat) : Bool := ((run.round n).poll (run.pins n) (run.clock n)).1.comboCheck.2

theorem comboCheck_withConsumed (s : Buttons) : ∃ flag, s.comboCheck.1 = s.withConsumed flag := by
  unfold Buttons.comboCheck
  split
  · exact ⟨true, rfl⟩
  · exact ⟨s.combo.consumed, rfl⟩

/-- But for the flag of the check the rounds go through the states of the polls. -/
theorem round_state (n : Nat) : ∃ flag, run.round n = (run.state n).withConsumed flag := by
  induction n with
  | zero => exact ⟨true, rfl⟩
  | succ n ih =>
    obtain ⟨flag, same⟩ := ih
    obtain ⟨-, polled, step⟩ :=
      Buttons.poll_withConsumed (run.state n) flag (run.pins n) (run.clock n)
    obtain ⟨checked, check⟩ :=
      comboCheck_withConsumed ((run.round n).poll (run.pins n) (run.clock n)).1
    refine ⟨checked, ?_⟩
    rw [round, check, same, step]
    rfl

theorem roundOut_eq (n : Nat) : run.roundOut n = run.out n := by
  obtain ⟨flag, same⟩ := run.round_state n
  rw [roundOut, same]
  exact (Buttons.poll_withConsumed (run.state n) flag (run.pins n) (run.clock n)).1

/-! ## When both are down -/

/-- Both buttons of the combo have been LOW for 20 ms or more at poll `n`. -/
def Both (n : Nat) : Prop := run.LowFor .up n ∧ run.LowFor .down n

def both (n : Nat) : Bool := (run.state n).bothPressed (run.pins n) (run.clock n)

variable {run} {e : Button} {i m n : Nat}

theorem debouncedPressed_iff (span : run.time n < run.time 0 + 2 ^ 32) :
    (run.sampled n e).debouncedPressed (run.clock n) = true ↔ run.LowFor e n := by
  refine ⟨fun down => ?_, debouncedPressed_of_lowFor span⟩
  have h := (held e n span).sampled span
  rw [BtnState.debouncedPressed, Bool.and_eq_true, decide_eq_true_eq, h.raw, Bool.not_not] at down
  have low : run.low e n = true := down.1
  have press := press_since low
  have begun : (run.sampled n e).lastChangeMs = run.clock (run.since e n) := by
    rw [h.change down.1, run.since_succ_of_low low]
  have late : 20 ≤ (run.clock n - (run.sampled n e).lastChangeMs).toNat := down.2
  rw [begun, run.elapsed span press.le] at late
  have order := run.monotone press.le
  exact ⟨run.since e n, press.le, press.low, by omega⟩

theorem both_iff (span : run.time n < run.time 0 + 2 ^ 32) : run.both n = true ↔ run.Both n := by
  rw [both, Buttons.bothPressed, Bool.and_eq_true]
  exact and_congr (debouncedPressed_iff span) (debouncedPressed_iff span)

/-! ## The latches -/

variable (run) in
/-- The combo before round `n`, with respect to the episode that reaches up to it. -/
structure Latched (n : Nat) (c : Combo) : Prop where
  hold : c.holdMs = 500
  quiet : (c.fired && !c.consumed) = false
  intent : c.intentActive = wasTrue run.both n
  since : wasTrue run.both n = true → c.bothPressedSinceMs = run.clock (streak run.both n)
  fired : wasTrue run.both n = true → (c.fired = true ↔
    ∃ m, streak run.both n ≤ m ∧ m < n ∧ run.time (streak run.both n) + 500 ≤ run.time m)

variable (run) in
/-- The episode is open at round `n`. -/
structure Opened (n : Nat) (c : Combo) : Prop where
  hold : c.holdMs = 500
  quiet : (c.fired && !c.consumed) = false
  intent : c.intentActive = true
  since : c.bothPressedSinceMs = run.clock (streak run.both n)
  fired : c.fired = true ↔
    ∃ m, streak run.both n ≤ m ∧ m < n ∧ run.time (streak run.both n) + 500 ≤ run.time m

variable {c : Combo}

theorem Latched.opened (h : run.Latched n c) : run.Opened n (c.openEpisode (run.clock n)) := by
  unfold Combo.openEpisode
  split
  · have inside : wasTrue run.both n = true := h.intent.symm.trans ‹_›
    exact ⟨h.hold, h.quiet, ‹_›, h.since inside, h.fired inside⟩
  · have begins : wasTrue run.both n = false := h.intent.symm.trans (Bool.eq_false_iff.mpr ‹_›)
    have here : streak run.both n = n := streak_of_not begins
    refine ⟨h.hold, rfl, rfl, by rw [here], iff_of_false Bool.noConfusion ?_⟩
    rintro ⟨m, after, earlier, -⟩
    omega

/-- The combo fires when the episode gets long enough, and only then. -/
theorem Opened.fire_iff (h : run.Opened n c) (span : run.time n < run.time 0 + 2 ^ 32) :
    (((c.fire (run.clock n)).fired && !(c.fire (run.clock n)).consumed) = true ↔
      run.time (streak run.both n) + 500 ≤ run.time n ∧
        ∀ m, streak run.both n ≤ m → m < n →
          run.time m < run.time (streak run.both n) + 500) ∧
      ((c.fire (run.clock n)).fired = true ↔
        ∃ m, streak run.both n ≤ m ∧ m < n + 1 ∧
          run.time (streak run.both n) + 500 ≤ run.time m) := by
  have le := streak_le run.both n
  have long : run.clock n - c.bothPressedSinceMs ≥ c.holdMs ↔
      run.time (streak run.both n) + 500 ≤ run.time n := by
    have elapsed := run.elapsed span le
    have order := run.monotone le
    rw [h.since, h.hold, ge_iff_le, BitVec.le_def, elapsed]
    show 500 ≤ _ ↔ _
    omega
  have latest (fired : ∃ m, streak run.both n ≤ m ∧ m < n ∧
      run.time (streak run.both n) + 500 ≤ run.time m) : ∃ m, streak run.both n ≤ m ∧
      m < n + 1 ∧ run.time (streak run.both n) + 500 ≤ run.time m := by
    obtain ⟨m, after, earlier, late⟩ := fired
    exact ⟨m, after, Nat.lt_succ_of_lt earlier, late⟩
  cases fired : c.fired with
  | true =>
    have same : c.fire (run.clock n) = c := by simp [Combo.fire, fired]
    obtain ⟨m, after, earlier, late⟩ := h.fired.mp fired
    rw [same]
    refine ⟨iff_of_false (Bool.eq_false_iff.mp h.quiet) fun first => ?_,
      iff_of_true fired (latest (h.fired.mp fired))⟩
    exact absurd late (Nat.not_le_of_lt (first.2 m after earlier))
  | false =>
    have none (m : Nat) (after : streak run.both n ≤ m) (earlier : m < n) :
        run.time m < run.time (streak run.both n) + 500 :=
      Nat.lt_of_not_le fun late =>
        absurd (fired.symm.trans (h.fired.mpr ⟨m, after, earlier, late⟩)) Bool.noConfusion
    by_cases due : run.time (streak run.both n) + 500 ≤ run.time n
    · have fires : c.fire (run.clock n) = { c with fired := true, consumed := false } := by
        simp [Combo.fire, fired, long.mpr due]
      rw [fires]
      exact ⟨iff_of_true rfl ⟨due, none⟩, iff_of_true rfl ⟨n, le, n.lt_succ_self, due⟩⟩
    · have same : c.fire (run.clock n) = c := by
        have short : ¬run.clock n - c.bothPressedSinceMs ≥ c.holdMs := due ∘ long.mp
        simp [Combo.fire, fired, short]
      rw [same, fired]
      refine ⟨iff_of_false Bool.noConfusion fun first => due first.1,
        iff_of_false Bool.noConfusion ?_⟩
      rintro ⟨m, after, earlier, late⟩
      exact due (late.trans (run.monotone (Nat.le_of_lt_succ earlier)))

theorem comboCheck_cases (s : Buttons) :
    s.comboCheck.2 = (s.combo.fired && !s.combo.consumed) ∧
      (s.comboCheck.1.combo.fired && !s.comboCheck.1.combo.consumed) = false := by
  unfold Buttons.comboCheck
  split
  · exact ⟨‹_› ▸ rfl, Bool.and_false _⟩
  · have quiet := Bool.eq_false_iff.mpr ‹_›
    exact ⟨quiet.symm, quiet⟩

theorem round_combo (run : ButtonRun) (n : Nat) : ((run.round n).poll (run.pins n) (run.clock n)).1.combo =
    if run.both n then (run.round n).combo.bothDown (run.clock n)
    else { (run.round n).combo with intentActive := false } := by
  obtain ⟨flag, same⟩ := run.round_state n
  have reset : Buttons.ResetCombo (run.round n).combo := by
    have h := run.resetCombo n
    rw [same]
    exact ⟨h.a, h.b, h.hold⟩
  rw [Buttons.poll_combo reset]
  have both : (run.round n).bothPressed (run.pins n) (run.clock n) = run.both n := by
    rw [same]
    rfl
  rw [both]

/-- One round: when it fires, and what it makes of the latches. -/
theorem Latched.step (h : run.Latched n (run.round n).combo)
    (span : run.time n < run.time 0 + 2 ^ 32) :
    (run.fires n = true ↔ run.both n = true ∧
        run.time (streak run.both n) + 500 ≤ run.time n ∧
        ∀ m, streak run.both n ≤ m → m < n → run.time m < run.time (streak run.both n) + 500) ∧
      run.Latched (n + 1) (run.round (n + 1)).combo := by
  have polled := run.round_combo n
  have check : run.fires n = ((run.round n).poll (run.pins n) (run.clock n)).1.comboCheck.2 := rfl
  have next : run.round (n + 1) =
      ((run.round n).poll (run.pins n) (run.clock n)).1.comboCheck.1 := rfl
  generalize ((run.round n).poll (run.pins n) (run.clock n)).1 = s at polled check next
  obtain ⟨fires, quiet⟩ := comboCheck_cases s
  obtain ⟨flag, checked⟩ := comboCheck_withConsumed s
  rw [check, fires, next]
  cases both : run.both n with
  | true =>
    rw [both, if_pos rfl] at polled
    have opened := h.opened
    have still : streak run.both (n + 1) = streak run.both n := streak_succ_of_true both
    have kept : (s.combo.holdMs = 500 ∧ s.combo.intentActive = true) ∧
        s.combo.bothPressedSinceMs = run.clock (streak run.both n) := by
      rw [polled, Combo.bothDown]
      unfold Combo.fire
      split
      · exact ⟨⟨opened.hold, opened.intent⟩, opened.since⟩
      · exact ⟨⟨opened.hold, opened.intent⟩, opened.since⟩
    have fire := opened.fire_iff span
    rw [← Combo.bothDown, ← polled] at fire
    refine ⟨by rw [fire.1, eq_self, true_and], ?_, quiet, ?_, fun _ => ?_, fun _ => ?_⟩
    · rw [checked]
      exact kept.1.1
    · rw [checked]
      exact kept.1.2.trans both.symm
    · rw [checked, still]
      exact kept.2
    · rw [checked, still]
      exact fire.2
  | false =>
    rw [both, if_neg Bool.noConfusion] at polled
    have was : wasTrue run.both (n + 1) = false := both
    have still : (s.combo.fired && !s.combo.consumed) = false := by
      rw [polled]
      exact h.quiet
    refine ⟨by simp [still], ?_, quiet, ?_, fun inside => ?_, fun inside => ?_⟩
    · rw [checked]
      exact (congrArg Combo.holdMs polled).trans h.hold
    · rw [checked, was]
      exact congrArg Combo.intentActive polled
    · exact absurd (was.symm.trans inside) Bool.noConfusion
    · exact absurd (was.symm.trans inside) Bool.noConfusion

/-- The latches follow the episode in every run. -/
theorem latched (n : Nat) (span : run.time n < run.time 0 + 2 ^ 32) :
    run.Latched n (run.round n).combo := by
  induction n with
  | zero => exact ⟨rfl, rfl, rfl, Bool.noConfusion, Bool.noConfusion⟩
  | succ n ih =>
    have earlier : run.time n < run.time 0 + 2 ^ 32 :=
      Nat.lt_of_le_of_lt (run.monotone n.le_succ) span
    exact ((ih earlier).step earlier).2

/-! ## No stray event -/

/-- The press of the button has nothing left to return. -/
def Spent (b : BtnState) : Prop := b.stable = false ∧ b.pendingShort = false

theorem spent_of_both (combo : e ≠ .select) (both : run.both n = true) :
    Spent (run.settled n e) := by
  have down : (run.sampled n e).debouncedPressed (run.clock n) = true := by
    rw [ButtonRun.both, Buttons.bothPressed, Bool.and_eq_true] at both
    cases e with
    | up => exact both.1
    | down => exact both.2
    | select => exact absurd rfl combo
  have stable := Buttons.debounce_down _ e (run.armed combo n) _ _ down
  change (run.state n).bothPressed (run.pins n) (run.clock n) = true at both
  rw [settled, Buttons.settled, both, decide_eq_true combo]
  exact ⟨stable, rfl⟩

/-- A poll leaves it so, and returns nothing for the button. -/
theorem Spent.poll (h : Spent (run.settled n e)) (combo : e ≠ .select) :
    run.out n ≠ some e ∧ Spent ((run.state (n + 1)).btns e) := by
  rcases run.poll_cases n with ⟨o, due, event, btns⟩ | ⟨-, ⟨-, event, btns⟩ | ⟨-, event, btns⟩⟩
  · rw [BtnState.shortDue, Bool.and_eq_true] at due
    have other : e ≠ o := by
      rintro rfl
      exact absurd (h.2.symm.trans due.1) Bool.noConfusion
    rw [event, btns, Function.update_of_ne other]
    exact ⟨fun same => other (Option.some.inj same).symm, h⟩
  · rw [event, btns, Function.update_of_ne combo]
    exact ⟨fun same => combo (Option.some.inj same).symm, h⟩
  · rw [event, btns]
    exact ⟨(Option.some_ne_none e).symm, h⟩

/-- And it stays so for as long as the button is LOW. -/
theorem Spent.sampled (h : Spent ((run.state n).btns e)) (low : run.low e n = true)
    (span : run.time n < run.time 0 + 2 ^ 32) : Spent (run.settled n e) := by
  have held := held e n span
  have was : run.wasLow e n = true := by
    cases was : run.wasLow e n with
    | true => rfl
    | false => exact absurd (h.1.symm.trans (held.idle was)) Bool.noConfusion
  obtain ⟨p, past, begun, -⟩ := held.start h.1
  have order := run.monotone past.le
  have late : 20 ≤ (run.clock n - ((run.state n).btns e).lastChangeMs).toNat := by
    rw [held.change was, run.elapsed span (run.since_le e n)]
    omega
  have pin : run.pins n e.gpio = false := by simpa [ButtonRun.low] using low
  have raw : ((run.state n).btns e).prevRaw = false := by rw [held.raw, was]; rfl
  have kept : run.sampled n e = (run.state n).btns e := by
    rw [ButtonRun.sampled, Buttons.sampled, pin]
    exact Buttons.debounce_kept _ e raw late (by rw [h.1, Bool.false_and])
  rw [settled, Buttons.settled]
  change Spent (if _ then (run.sampled n e).clearShort else run.sampled n e)
  rw [kept]
  split
  · exact ⟨h.1, rfl⟩
  · exact h

/-- From a poll of an episode on a press returns nothing. -/
theorem spent_after (combo : e ≠ .select) (press : ∀ k, m ≤ k → k ≤ n → run.low e k = true)
    (both : run.both m = true) (after : m ≤ n) (span : run.time n < run.time 0 + 2 ^ 32) :
    Spent (run.settled n e) := by
  induction n, after using Nat.le_induction with
  | base => exact spent_of_both combo both
  | succ n after ih =>
    have earlier : run.time n < run.time 0 + 2 ^ 32 :=
      Nat.lt_of_le_of_lt (run.monotone n.le_succ) span
    have spent := ih (fun k first last => press k first (Nat.le_succ_of_le last)) earlier
    exact (spent.poll combo).2.sampled (press (n + 1) (Nat.le_succ_of_le after) le_rfl) span

/-! ## Episodes -/

variable (run) in
/-- The polls from `i` to `n` have both buttons down, and the one before `i` has not: the
episode that began at `i`, as far as poll `n`. -/
structure Episode (i n : Nat) : Prop where
  le : i ≤ n
  both : ∀ m, i ≤ m → m ≤ n → run.Both m
  begins : ∀ p, i = p + 1 → ¬run.Both p

theorem Episode.streak_eq (h : run.Episode i n) (span : run.time n < run.time 0 + 2 ^ 32) :
    run.both n = true ∧ streak run.both n = i := by
  have within {m : Nat} (le : m ≤ n) : run.time m < run.time 0 + 2 ^ 32 :=
    Nat.lt_of_le_of_lt (run.monotone le) span
  refine ⟨(both_iff span).mpr (h.both n h.le le_rfl),
    Library.streak_eq h.le (fun m after before => ?_) ?_⟩
  · exact (both_iff (within before.le)).mpr (h.both m after before.le)
  · have le := h.le
    have begins := h.begins
    cases i with
    | zero => rfl
    | succ p =>
      exact Bool.eq_false_iff.mpr fun down =>
        begins p rfl ((both_iff (within (Nat.le_of_succ_le le))).mp down)

theorem episode_streak (both : run.both n = true) (span : run.time n < run.time 0 + 2 ^ 32) :
    run.Episode (streak run.both n) n where
  le := streak_le run.both n
  both m after before := by
    rw [← both_iff (Nat.lt_of_le_of_lt (run.monotone before) span)]
    rcases Nat.lt_or_eq_of_le before with earlier | rfl
    · exact true_of_streak after earlier
    · exact both
  begins p here down := by
    have le := streak_le run.both n
    have begins := wasTrue_streak run.both n
    rw [here] at begins le
    have up : run.both p = false := begins
    have order := run.monotone (Nat.le_of_succ_le le)
    rw [(both_iff (Nat.lt_of_le_of_lt order span)).mpr down] at up
    cases up

/-- The check of round `n` returns true when an episode is long enough at `n` and was not
before. -/
theorem fires_iff (n : Nat) (span : run.time n < run.time 0 + 2 ^ 32) :
    run.fires n = true ↔ ∃ i, run.Episode i n ∧ run.time i + 500 ≤ run.time n ∧
      ∀ m, i ≤ m → m < n → run.time m < run.time i + 500 := by
  rw [((latched n span).step span).1]
  constructor
  · rintro ⟨both, long⟩
    exact ⟨streak run.both n, episode_streak both span, long⟩
  · rintro ⟨i, episode, long⟩
    obtain ⟨both, here⟩ := episode.streak_eq span
    rw [here]
    exact ⟨both, long⟩

theorem Episode.begun (h : run.Episode i n) (after : i ≤ m) (before : m ≤ n) :
    run.Episode i m :=
  ⟨after, fun k first last => h.both k first (last.trans before), h.begins⟩

/-- An episode that is long enough has one round that returns true. -/
theorem Episode.fires_once (h : run.Episode i n) (span : run.time n < run.time 0 + 2 ^ 32)
    (long : run.time i + 500 ≤ run.time n) :
    ∃! m, (i ≤ m ∧ m ≤ n) ∧ run.fires m = true := by
  have within {m : Nat} (le : m ≤ n) : run.time m < run.time 0 + 2 ^ 32 :=
    Nat.lt_of_le_of_lt (run.monotone le) span
  have some_late : ∃ m, i ≤ m ∧ run.time i + 500 ≤ run.time m := ⟨n, h.le, long⟩
  obtain ⟨after, late⟩ := Nat.find_spec some_late
  have le : Nat.find some_late ≤ n := Nat.find_min' some_late ⟨h.le, long⟩
  refine ⟨Nat.find some_late, ⟨⟨after, le⟩, ?_⟩, fun m again => ?_⟩
  · refine (fires_iff _ (within le)).mpr ⟨i, h.begun after le, late, fun m later before => ?_⟩
    exact Nat.lt_of_not_le fun early => Nat.find_min some_late before ⟨later, early⟩
  · obtain ⟨⟨later, before⟩, fires⟩ := again
    obtain ⟨j, episode, enough, first⟩ := (fires_iff m (within before)).mp fires
    obtain rfl : j = i :=
      (episode.streak_eq (within before)).2.symm.trans
        ((h.begun later before).streak_eq (within before)).2
    refine Nat.le_antisymm (Nat.le_of_not_lt fun gap => ?_) (Nat.find_min' some_late ⟨later, enough⟩)
    exact absurd late (Nat.not_le_of_lt (first _ after gap))

/-- The reset combo fires exactly when held, once: the check of a round returns true at the
first round of an episode that is 500 ms after its first one, so exactly once in every
episode that has such a round, and nowhere else; and a press of UP or DOWN that takes part in
an episode returns no event from there on. -/
theorem combo_fires_once (run : ButtonRun) (n : Nat) (span : run.time n < run.time 0 + 2 ^ 32) :
    (run.fires n = true ↔ ∃ i, run.Episode i n ∧ run.time i + 500 ≤ run.time n ∧
        ∀ m, i ≤ m → m < n → run.time m < run.time i + 500) ∧
      (∀ i, run.Episode i n → run.time i + 500 ≤ run.time n →
        ∃! m, (i ≤ m ∧ m ≤ n) ∧ run.fires m = true) ∧
      ∀ e i m, e ≠ .select → run.Press e i n → i ≤ m → m ≤ n → run.Both m →
        run.roundOut n ≠ some e := by
  refine ⟨fires_iff n span, fun i episode long => episode.fires_once span long,
    fun e i m combo press after before both => ?_⟩
  rw [roundOut_eq]
  have down : run.both m = true :=
    (both_iff (Nat.lt_of_le_of_lt (run.monotone before) span)).mpr both
  have low (k : Nat) (first : m ≤ k) (last : k ≤ n) : run.low e k = true :=
    press.low k (after.trans first) last
  exact ((spent_after combo low down before span).poll combo).1

/-- UP and DOWN are LOW at every poll, 20 ms apart. -/
def bothDown : ButtonRun where
  before := Buttons.zero
  time n := 20 * n
  pins _ gpio := decide (gpio = Button.select.gpio)
  monotone _ _ le := Nat.mul_le_mul_left 20 le

theorem bothDown_episode (n : Nat) : bothDown.Episode 1 (n + 1) where
  le := Nat.le_add_left 1 n
  both m after _ := by
    have low (e : Button) (combo : e ≠ .select) : bothDown.LowFor e m := by
      refine ⟨0, m.zero_le, fun k _ _ => ?_, ?_⟩
      · cases e with
        | up => rfl
        | down => rfl
        | select => exact absurd rfl combo
      · show 20 * 0 + 20 ≤ 20 * m
        omega
    exact ⟨low .up (by decide), low .down (by decide)⟩
  begins p first both := by
    obtain rfl : p = 0 := by omega
    obtain ⟨i, le, -, late⟩ := both.1
    change 20 * i + 20 ≤ 20 * 0 at late
    omega

theorem combo_fires_once_bothDown : bothDown.fires 26 = true := by
  refine (combo_fires_once bothDown 26 (by decide)).1.mpr
    ⟨1, bothDown_episode 25, by decide, fun m after before => ?_⟩
  change 20 * m < 20 * 1 + 500
  omega

end ButtonRun

end MsxPulse.Firmware
