import MsxPulse.Firmware.Buttons.Polls

/-!
# Taps of UP and DOWN

The comment at COMBO_WINDOW_MS lets a deferred short fire when the window has passed "or
if the button is released early". The first pass drops it at the release, so with polls
1 ms apart a press has its one event if it lasts for 120 ms, and a shorter one has none.
-/

namespace MsxPulse.Firmware

namespace Buttons

/-- A button with a deferred short, `r` ms after the first LOW sample at `start`. -/
structure TapAt (start : U32) (r : Nat) (b : BtnState) : Prop where
  raw : b.prevRaw = false
  change : b.lastChangeMs = start
  armed : b.armed = true
  stable : b.stable = decide (r < 20)
  pending : b.pendingShort = decide (20 ≤ r ∧ r < 120)
  press : 20 ≤ r → b.pressStartMs = start + 20

/-- The third pass, as far as one button is concerned. -/
def dispatch (b : BtnState) (now : U32) : BtnState :=
  if b.shortDue now then b.clearShort else b

variable {c : Combo} {e : Button} {b : BtnState} {start now : U32} {r next : Nat}

theorem tapAt_fresh (c : Combo) (e : Button) (high : b.prevRaw = true) (armed : b.armed = true)
    (start : U32) :
    ((debounce c e b false start).1.shortDue start = false) ∧
      TapAt start 0 (dispatch (debounce c e b false start).1 start) := by
  rw [debounce_fresh c e high]
  exact ⟨rfl, rfl, rfl, armed, rfl, rfl, by omega⟩

/-- The next poll finds the press 1 ms older, or the timer back at its start. -/
theorem TapAt.step (h : TapAt start r b) (combo : ResetCombo c) (waits : e ≠ .select)
    (elapsed : (now - start).toNat = next) (order : next = r + 1 ∨ next = 0) :
    ((debounce c e b false now).1.shortDue now = true ↔ next = 120) ∧
      TapAt start next (dispatch (debounce c e b false now).1 now) := by
  have change : (now - b.lastChangeMs).toNat = next := by rw [h.change, elapsed]
  rcases Nat.lt_or_ge next 20 with early | late
  · -- The debounce time, at first or once more after the timer's wrap.
    rw [debounce_early c e h.raw (by omega)]
    refine ⟨iff_of_false Bool.noConfusion (by omega), h.raw, h.change, h.armed, ?_, ?_, by omega⟩
    · rw [decide_eq_true early]
      rfl
    · rw [decide_eq_false (by omega)]
      rfl
  · obtain rfl : next = r + 1 := by omega
    rcases Nat.lt_or_ge r 20 with first | later
    · -- The press begins.
      obtain rfl : r = 19 := by omega
      have stable : b.stable = true := h.stable
      have at_start : now = start + 20 := by bv_omega
      rw [debounce_new combo e h.raw (by omega) stable h.armed, if_neg waits]
      have waiting : BtnState.shortDue { b.press now with pendingShort := true } now = false := by
        simp [BtnState.shortDue, BtnState.press, comboWindowMs]
      rw [dispatch, waiting]
      exact ⟨by decide, h.raw, h.change, h.armed, rfl, rfl, fun _ => at_start⟩
    · have down : b.stable = false := by
        rw [h.stable]
        exact decide_eq_false (by omega)
      have waited : (now - b.pressStartMs).toNat = r + 1 - 20 := by
        rw [h.press later]
        bv_omega
      have due : b.shortDue now = true ↔ r + 1 = 120 := by
        have window : now - b.pressStartMs ≥ comboWindowMs ↔ 100 ≤ r + 1 - 20 := by
          rw [← waited]
          exact Iff.rfl
        rw [BtnState.shortDue, h.pending, Bool.and_eq_true, decide_eq_true_eq, decide_eq_true_eq,
          window]
        omega
      rw [debounce_kept c e h.raw (by omega) (by rw [down, Bool.false_and])]
      refine ⟨due, ?_⟩
      have still : b.stable = decide (r + 1 < 20) := by
        rw [down]
        exact (decide_eq_false (by omega)).symm
      unfold dispatch
      split
      · refine ⟨h.raw, h.change, h.armed, still, ?_, fun _ => h.press later⟩
        have last := due.mp ‹_›
        exact (decide_eq_false (by omega)).symm
      · refine ⟨h.raw, h.change, h.armed, still, ?_, fun _ => h.press later⟩
        have other : r + 1 ≠ 120 := fun last => ‹¬_› (due.mpr last)
        rw [h.pending]
        exact decide_eq_decide.mpr (by omega)

end Buttons

namespace ButtonRun

variable {run : ButtonRun} {e : Button} {n : Nat}

/-- After the first pass a poll touches the flags of the two kinds of event only. -/
theorem state_succ (run : ButtonRun) (n : Nat) (e : Button) :
    ∃ pending hold, (run.state (n + 1)).btns e =
        { run.sampled n e with pendingShort := pending, holdFired := hold } ∧
      (pending = true → (run.sampled n e).pendingShort = true) := by
  have settled (e : Button) : ∃ pending, run.settled n e =
      { run.sampled n e with pendingShort := pending } ∧
      (pending = true → (run.sampled n e).pendingShort = true) := by
    unfold settled Buttons.settled
    split
    · exact ⟨false, rfl, Bool.noConfusion⟩
    · exact ⟨_, rfl, id⟩
  obtain ⟨pending, same, waits⟩ := settled e
  rcases run.poll_cases n with ⟨e', -, -, btns⟩ | ⟨-, ⟨-, -, btns⟩ | ⟨-, -, btns⟩⟩
  · rw [btns, Function.update_apply]
    split
    · obtain rfl : e = e' := ‹_›
      exact ⟨false, (run.sampled n e).holdFired, by rw [same]; rfl, Bool.noConfusion⟩
    · exact ⟨pending, (run.sampled n e).holdFired, same, waits⟩
  · rw [btns, Function.update_apply]
    split
    · obtain rfl : e = .select := ‹_›
      exact ⟨pending, true, by rw [same], waits⟩
    · exact ⟨pending, (run.sampled n e).holdFired, same, waits⟩
  · rw [btns]
    exact ⟨pending, (run.sampled n e).holdFired, same, waits⟩

theorem prevRaw (run : ButtonRun) (e : Button) (n : Nat) :
    ((run.state n).btns e).prevRaw = !run.wasLow e n := by
  cases n with
  | zero => rfl
  | succ n =>
    obtain ⟨pending, hold, same, -⟩ := run.state_succ n e
    rw [same]
    show (run.sampled n e).prevRaw = !run.low e n
    rw [low, Bool.not_not]
    exact Buttons.debounce_prevRaw (run.state n).combo e _ _ _

/-- UP and DOWN are armed from the start. -/
theorem armed (run : ButtonRun) (waits : e ≠ .select) (n : Nat) :
    ((run.state n).btns e).armed = true := by
  induction n with
  | zero => exact decide_eq_true waits
  | succ n ih =>
    obtain ⟨pending, hold, same, -⟩ := run.state_succ n e
    rw [same]
    exact Buttons.debounce_armed (run.state n).combo e ih _ _

theorem select_quiet (run : ButtonRun) (n : Nat) :
    ((run.state n).btns .select).pendingShort = false := by
  induction n with
  | zero => rfl
  | succ n ih =>
    obtain ⟨pending, hold, same, waits⟩ := run.state_succ n .select
    have quiet := Buttons.debounce_select_quiet (run.resetCombo n) ih
      (run.pins n Button.select.gpio) (run.clock n)
    rw [same]
    show pending = false
    cases pending with
    | false => rfl
    | true => exact absurd (quiet.symm.trans (waits rfl)) Bool.noConfusion

theorem sampled_of_high (high : run.low e n = false) :
    (run.sampled n e).pendingShort = false ∧
      (run.sampled n e).debouncedPressed (run.clock n) = false := by
  have pin : run.pins n e.gpio = true := by simpa [low] using high
  obtain ⟨b, released, raw, -⟩ := Buttons.debounce_high (run.state n).combo e
    ((run.state n).btns e) (run.clock n)
  have same : run.sampled n e = b.release := by
    unfold sampled Buttons.sampled
    rw [pin, released]
  rw [same]
  exact ⟨rfl, by simp [BtnState.debouncedPressed, BtnState.release, raw]⟩

/-- While the other combo button is HIGH, a poll gives the button's event if it is due,
and takes its state to `dispatch`. -/
theorem alone_step (waits : e ≠ .select)
    (alone : ∀ o, o ≠ e → o ≠ .select → run.low o n = false) :
    (run.out n = some e ↔ (run.sampled n e).shortDue (run.clock n) = true) ∧
      (run.state (n + 1)).btns e = Buttons.dispatch (run.sampled n e) (run.clock n) := by
  have single : (run.state n).bothPressed (run.pins n) (run.clock n) = false := by
    rw [Buttons.bothPressed]
    cases e with
    | up => rw [(sampled_of_high (alone .down (by decide) (by decide))).2, Bool.and_false]
    | down => rw [(sampled_of_high (alone .up (by decide) (by decide))).2, Bool.false_and]
    | select => exact absurd rfl waits
  have settled (o : Button) : run.settled n o = run.sampled n o := by
    rw [ButtonRun.settled, Buttons.settled, single]
    rfl
  have only (o : Button) (due : (run.settled n o).shortDue (run.clock n) = true) : o = e := by
    by_contra other
    rw [settled, BtnState.shortDue, Bool.and_eq_true] at due
    rcases eq_or_ne o .select with rfl | combo
    · have quiet := Buttons.debounce_select_quiet (run.resetCombo n) (run.select_quiet n)
        (run.pins n Button.select.gpio) (run.clock n)
      exact absurd (quiet.symm.trans due.1) Bool.noConfusion
    · rw [(sampled_of_high (alone o other combo)).1] at due
      cases due.1
  rcases run.poll_cases n with ⟨o, due, event, btns⟩ | ⟨none_due, ⟨-, event, btns⟩ | ⟨-, event, btns⟩⟩
  · obtain rfl := only o due
    rw [settled] at due
    refine ⟨iff_of_true event due, ?_⟩
    rw [btns, Function.update_self, Buttons.dispatch, if_pos due]
    exact congrArg BtnState.clearShort (settled o)
  · have waiting := none_due e
    rw [settled] at waiting
    refine ⟨iff_of_false (fun same => waits ?_) (Bool.eq_false_iff.mp waiting), ?_⟩
    · exact Option.some.inj (same.symm.trans event)
    · rw [btns, Function.update_of_ne waits, Buttons.dispatch, waiting]
      exact settled e
  · have waiting := none_due e
    rw [settled] at waiting
    refine ⟨iff_of_false (fun same => nomatch same.symm.trans event)
      (Bool.eq_false_iff.mp waiting), ?_⟩
    rw [btns, Buttons.dispatch, waiting]
    exact settled e

/-- A whole press of UP or DOWN, from its first LOW poll to its last one, while the
other of the two is HIGH. -/
structure Tap (run : ButtonRun) (e : Button) (first last : Nat) : Prop where
  combo : e ≠ .select
  le : first ≤ last
  low : ∀ n, first ≤ n → n ≤ last → run.low e n = true
  begins : run.wasLow e first = false
  ends : run.low e (last + 1) = false
  alone : ∀ o, o ≠ e → o ≠ .select → ∀ n, first ≤ n → n ≤ last → run.low o n = false

variable {first last : Nat}

/-- Polls 1 ms apart. -/
theorem elapsed_ms (ms : ∀ n, run.time n = run.time 0 + n) (n d : Nat) :
    (run.clock (n + d) - run.clock n).toNat = d % 2 ^ 32 := by
  have later : run.time (n + d) - run.time n = d := by
    rw [ms (n + d), ms n]
    omega
  rw [clock, clock, ofNat_sub_ofNat (run.monotone (Nat.le_add_right n d)), later,
    BitVec.toNat_ofNat]

theorem Tap.sampled (tap : run.Tap e first last) (after : first ≤ n) (before : n ≤ last) :
    run.sampled n e =
      (Buttons.debounce (run.state n).combo e ((run.state n).btns e) false (run.clock n)).1 := by
  have pin : run.pins n e.gpio = false := by simpa [ButtonRun.low] using tap.low n after before
  unfold ButtonRun.sampled Buttons.sampled
  rw [pin]

/-- A press returns its event 120 ms after its first LOW sample, whenever the timer says
so, and at no other poll. -/
theorem Tap.out_iff (ms : ∀ n, run.time n = run.time 0 + n) (tap : run.Tap e first last) (d : Nat)
    (before : first + d ≤ last) :
    (run.out (first + d) = some e ↔ d % 2 ^ 32 = 120) ∧
      Buttons.TapAt (run.clock first) (d % 2 ^ 32) ((run.state (first + d + 1)).btns e) := by
  have after : first ≤ first + d := Nat.le_add_right first d
  obtain ⟨event, state⟩ := alone_step tap.combo
    fun o other combo => tap.alone o other combo (first + d) after before
  rw [event, state, tap.sampled after before]
  induction d with
  | zero =>
    have high : ((run.state first).btns e).prevRaw = true := by rw [run.prevRaw, tap.begins]; rfl
    obtain ⟨waiting, fresh⟩ := Buttons.tapAt_fresh (run.state first).combo e high
      (run.armed tap.combo first) (run.clock first)
    exact ⟨iff_of_false (Bool.eq_false_iff.mp waiting) (by decide), fresh⟩
  | succ d ih =>
    have earlier : first ≤ first + d := Nat.le_add_right first d
    obtain ⟨event', state'⟩ := alone_step tap.combo
      fun o other combo => tap.alone o other combo (first + d) earlier (by omega)
    have held := (ih (by omega) earlier event' state').2
    rw [← tap.sampled earlier (by omega), ← state'] at held
    exact held.step (run.resetCombo _) tap.combo (elapsed_ms ms first (d + 1)) (by omega)

/-- The release returns nothing for the button. -/
theorem out_of_high (waits : e ≠ .select) (high : run.low e n = false) :
    run.out n ≠ some e := by
  intro event
  rcases run.poll_cases n with ⟨o, due, returned, -⟩ | ⟨-, ⟨-, returned, -⟩ | ⟨-, returned, -⟩⟩
  · obtain rfl : o = e := Option.some.inj (returned.symm.trans event)
    rw [BtnState.shortDue, Bool.and_eq_true] at due
    have quiet := (sampled_of_high high).1
    unfold settled Buttons.settled at due
    split at due
    · cases due.1
    · rw [quiet] at due
      cases due.1
  · exact waits (Option.some.inj (event.symm.trans returned))
  · exact nomatch returned.symm.trans event

/-- A press has exactly one event if it lasts for 120 ms from its first LOW sample to its
last one, and not for the timer's whole period more. A shorter one is dropped, at its
release too. -/
theorem one_event_iff (run : ButtonRun) (ms : ∀ n, run.time n = run.time 0 + n)
    (e : Button) (first last : Nat) (tap : run.Tap e first last) :
    (∃! n, first ≤ n ∧ n ≤ last + 1 ∧ run.out n = some e) ↔
      first + 120 ≤ last ∧ last < first + 2 ^ 32 + 120 := by
  have out (n : Nat) (after : first ≤ n) (before : n ≤ last + 1) :
      run.out n = some e ↔ n ≤ last ∧ (n - first) % 2 ^ 32 = 120 := by
    rcases Nat.lt_or_ge last n with released | held
    · obtain rfl : n = last + 1 := by omega
      exact iff_of_false (out_of_high tap.combo tap.ends) (by omega)
    · obtain ⟨d, rfl⟩ := Nat.exists_eq_add_of_le after
      rw [(tap.out_iff ms d held).1, Nat.add_sub_cancel_left]
      exact (and_iff_right held).symm
  constructor
  · rintro ⟨n, ⟨after, before, event⟩, only⟩
    obtain ⟨held, waited⟩ := (out n after before).mp event
    refine ⟨by omega, ?_⟩
    by_contra wraps
    have once := only (first + 120)
      ⟨by omega, by omega, (out _ (by omega) (by omega)).mpr ⟨by omega, by omega⟩⟩
    have again := only (first + 2 ^ 32 + 120)
      ⟨by omega, by omega, (out _ (by omega) (by omega)).mpr ⟨by omega, by omega⟩⟩
    omega
  · rintro ⟨long, single⟩
    refine ⟨first + 120, ⟨by omega, by omega,
      (out _ (by omega) (by omega)).mpr ⟨by omega, by omega⟩⟩, ?_⟩
    rintro n ⟨after, before, event⟩
    obtain ⟨held, waited⟩ := (out n after before).mp event
    omega

/-- UP is LOW from the first poll up to poll `last`, and nothing else is pressed. -/
def tapUp (last : Nat) : ButtonRun where
  before := Buttons.zero
  time n := n
  pins n gpio := decide (gpio = Button.up.gpio → last < n)
  monotone := monotone_id

theorem tapUp_tap (last : Nat) : (tapUp last).Tap .up 0 last where
  combo := by decide
  le := last.zero_le
  low n _ before := by simp [ButtonRun.low, tapUp, before]
  begins := rfl
  ends := by simp [ButtonRun.low, tapUp]
  alone o other _ n _ _ := by
    have pin : o.gpio ≠ Button.up.gpio := by cases o <;> first | exact absurd rfl other | decide
    simp [ButtonRun.low, tapUp, pin]

theorem one_event_iff_tapUp :
    (∃! n, 0 ≤ n ∧ n ≤ 150 + 1 ∧ (tapUp 150).out n = some .up) ↔
      0 + 120 ≤ 150 ∧ 150 < 0 + 2 ^ 32 + 120 :=
  one_event_iff (tapUp 150) (fun n => (Nat.zero_add n).symm) .up 0 150 (tapUp_tap 150)

/-- A tap of 50 ms has no event, neither in its window nor at its release. -/
theorem short_tap_lost :
    ¬∀ run : ButtonRun, (∀ n, run.time n = run.time 0 + n) → ∀ e first last,
      run.Tap e first last → first + 20 ≤ last →
        ∃! n, first ≤ n ∧ n ≤ last + 1 ∧ run.out n = some e := by
  intro kept
  have ms (n : Nat) : (tapUp 50).time n = (tapUp 50).time 0 + n := (Nat.zero_add n).symm
  obtain ⟨n, ⟨-, before, event⟩, -⟩ := kept (tapUp 50) ms .up 0 50 (tapUp_tap 50) (by decide)
  rcases Nat.lt_or_ge 50 n with released | held
  · exact out_of_high (by decide) (by simp [ButtonRun.low, tapUp, released]) event
  · have waited := ((tapUp_tap 50).out_iff ms n (by omega)).1.mp (by rwa [Nat.zero_add])
    omega

end ButtonRun

end MsxPulse.Firmware
