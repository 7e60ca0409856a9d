import MsxPulse.Firmware.Buttons.Polls

/-!
# What an event of a button tells

Every event comes from a press that is long enough, one press gives one event, and
while both combo buttons are down neither gives one. The invariant relates a button's
flags and time stamps to the run of LOW samples that reaches up to the current poll.
-/

namespace MsxPulse.Firmware

namespace ButtonRun

variable (run : ButtonRun)

/-- The polls from `i` to `n` sample the button LOW and no LOW sample stands before
them: the press that began at `i`, as far as poll `n`. -/
structure Press (e : Button) (i n : Nat) : Prop where
  le : i ≤ n
  low : ∀ m, i ≤ m → m ≤ n → run.low e m = true
  begins : run.wasLow e i = false

/-- The button has been LOW for 20 ms or more at poll `n`. -/
def LowFor (e : Button) (n : Nat) : Prop :=
  ∃ i ≤ n, (∀ m, i ≤ m → m ≤ n → run.low e m = true) ∧ run.time i + 20 ≤ run.time n

variable {run}

theorem press_since {e : Button} {n : Nat} (low : run.low e n = true) :
    run.Press e (run.since e n) n where
  le := run.since_le e n
  low m after before := by
    rw [← run.since_succ_of_low low] at after
    exact run.low_of_since after (Nat.lt_succ_of_le before)
  begins := run.wasLow_since e n

variable (run)

/-- A button's state with respect to the run of LOW samples up to poll `n` and to the
events returned before poll `seen`. -/
structure Held (e : Button) (n seen : Nat) (b : BtnState) : Prop where
  raw : b.prevRaw = !run.wasLow e n
  change : run.wasLow e n = true → b.lastChangeMs = run.clock (run.since e n)
  idle : run.wasLow e n = false → b.stable = true
  start : b.stable = false →
    ∃ p < n, run.time (run.since e n) + 20 ≤ run.time p ∧ b.pressStartMs = run.clock p
  pending : b.pendingShort = true → b.stable = false ∧ e ≠ .select
  once : ∀ m, run.since e n ≤ m → m < seen → run.out m = some e →
    b.stable = false ∧ b.pendingShort = false ∧ (e = .select → b.holdFired = true)

variable {run} {e : Button} {n seen : Nat} {b : BtnState}

theorem Held.clearShort (h : run.Held e n seen b) : run.Held e n seen b.clearShort :=
  ⟨h.raw, h.change, h.idle, h.start, fun pending => Bool.noConfusion pending,
    fun m after before event => ⟨(h.once m after before event).1, rfl,
      (h.once m after before event).2.2⟩⟩

theorem Held.holdFired (h : run.Held e n seen b) :
    run.Held e n seen { b with holdFired := true } :=
  ⟨h.raw, h.change, h.idle, h.start, h.pending, fun m after before event =>
    ⟨(h.once m after before event).1, (h.once m after before event).2.1, fun _ => rfl⟩⟩

/-- Another poll returned, and its event left the button as it has to. -/
theorem Held.seen_succ (h : run.Held e n seen b) (event : run.out seen = some e →
    b.stable = false ∧ b.pendingShort = false ∧ (e = .select → b.holdFired = true)) :
    run.Held e n (seen + 1) b :=
  { h with
    once := fun m after before returned => by
      rcases Nat.lt_succ_iff_lt_or_eq.mp before with earlier | rfl
      · exact h.once m after earlier returned
      · exact event returned }

/-- A released button has nothing to remember of its press. -/
theorem held_release {b : BtnState} (raw : b.prevRaw = !run.wasLow e n)
    (change : run.wasLow e n = true → b.lastChangeMs = run.clock (run.since e n))
    (quiet : ∀ m, run.since e n ≤ m → m < seen → run.out m ≠ some e) :
    run.Held e n seen b.release where
  raw := raw
  change := change
  idle _ := rfl
  start stable := Bool.noConfusion stable
  pending pending := Bool.noConfusion pending
  once m after before event := absurd event (quiet m after before)

/-- A press begins 20 ms after the first LOW sample of its run. -/
theorem Held.press (h : run.Held e n n b) (low : run.wasLow e n = true) (stable : b.stable = true)
    (still : run.low e n = true) (late : run.time (run.since e n) + 20 ≤ run.time n) :
    run.Held e (n + 1) n
      { b.press (run.clock n) with
        pendingShort := if e = .select then b.pendingShort else true } where
  raw := by
    show b.prevRaw = !run.low e n
    rw [h.raw, low, still]
  change _ := by
    rw [run.since_succ_of_low still]
    exact h.change low
  idle high := absurd (still.symm.trans high) Bool.noConfusion
  start _ := ⟨n, n.lt_succ_self, by rwa [run.since_succ_of_low still], rfl⟩
  pending pending := by
    refine ⟨rfl, ?_⟩
    rintro rfl
    rw [if_pos rfl] at pending
    exact absurd ((h.pending pending).1.symm.trans stable) Bool.noConfusion
  once m after before event := by
    rw [run.since_succ_of_low still] at after
    have down := (h.once m after before event).1
    rw [stable] at down
    cases down

/-- A LOW button that the first pass leaves as it is. -/
theorem Held.still_low (h : run.Held e n n b) (low : run.wasLow e n = true)
    (still : run.low e n = true) : run.Held e (n + 1) n b where
  raw := by
    show b.prevRaw = !run.low e n
    rw [h.raw, low, still]
  change _ := by
    rw [run.since_succ_of_low still]
    exact h.change low
  idle high := absurd (still.symm.trans high) Bool.noConfusion
  start down := by
    obtain ⟨p, past, begun, same⟩ := h.start down
    exact ⟨p, Nat.lt_succ_of_lt past, by rwa [run.since_succ_of_low still], same⟩
  pending := h.pending
  once m after := h.once m (run.since_succ_of_low still ▸ after)

/-- The first pass takes the invariant to the next poll. -/
theorem Held.sampled (h : run.Held e n n ((run.state n).btns e))
    (span : run.time n < run.time 0 + 2 ^ 32) :
    run.Held e (n + 1) n (run.sampled n e) := by
  have combo := run.resetCombo n
  unfold ButtonRun.sampled Buttons.sampled
  generalize (run.state n).btns e = b at h
  cases pin : run.pins n e.gpio with
  | true =>
    obtain ⟨b', released, raw, -⟩ := Buttons.debounce_high (run.state n).combo e b (run.clock n)
    have high : run.wasLow e (n + 1) = false := by simp [wasLow, low, pin]
    rw [released]
    refine held_release (by rw [raw, high]; rfl) (fun low => ?_) fun m after before => ?_
    · rw [high] at low
      cases low
    · rw [run.since_of_high high] at after
      omega
  | false =>
    have low : run.low e n = true := by simp [ButtonRun.low, pin]
    have still : run.since e (n + 1) = run.since e n := run.since_succ_of_low low
    have was : run.wasLow e (n + 1) = true := low
    cases before : run.wasLow e n with
    | false =>
      have here : run.since e n = n := run.since_of_high before
      rw [Buttons.debounce_fresh _ e (by rw [h.raw, before]; rfl)]
      refine held_release (by rw [was]; rfl) (fun _ => by rw [still, here])
        fun m after earlier => ?_
      rw [still, here] at after
      omega
    | true =>
      have raw : b.prevRaw = false := by rw [h.raw, before]; rfl
      have elapsed : (run.clock n - b.lastChangeMs).toNat =
          run.time n - run.time (run.since e n) := by
        rw [h.change before, run.elapsed span (run.since_le e n)]
      rcases Nat.lt_or_ge (run.time n - run.time (run.since e n)) 20 with early | late
      · rw [Buttons.debounce_early _ e raw (by omega)]
        refine held_release (by rw [raw, was]; rfl) (fun _ => by rw [still, h.change before])
          fun m after earlier event => ?_
        -- An event before would have begun 20 ms after the first LOW sample.
        rw [still] at after
        obtain ⟨p, past, begun, -⟩ := h.start (h.once m after earlier event).1
        have order := run.monotone past.le
        omega
      · by_cases new : (b.stable && b.armed) = true
        · rw [Bool.and_eq_true] at new
          rw [Buttons.debounce_new combo e raw (by omega) new.1 new.2]
          exact h.press before new.1 low (by omega)
        · rw [Buttons.debounce_kept _ e raw (by omega) (Bool.eq_false_iff.mpr new)]
          exact h.still_low before low

/-- The first two passes take it there as well. -/
theorem Held.settled (h : run.Held e n n ((run.state n).btns e))
    (span : run.time n < run.time 0 + 2 ^ 32) :
    run.Held e (n + 1) n (run.settled n e) := by
  have sampled := h.sampled span
  unfold ButtonRun.settled Buttons.settled
  split
  · exact sampled.clearShort
  · exact sampled

/-- A short that is due ends the wait of this button. -/
theorem Held.short_step (h : run.Held e (n + 1) n b) (due : b.shortDue (run.clock n) = true) :
    run.Held e (n + 1) (n + 1) b.clearShort := by
  rw [BtnState.shortDue, Bool.and_eq_true] at due
  have pending := h.pending due.1
  exact h.clearShort.seen_succ fun _ => ⟨pending.1, rfl, fun select => absurd select pending.2⟩

theorem Held.hold_step (h : run.Held .select (n + 1) n b)
    (due : b.holdDue (run.clock n) = true) :
    run.Held .select (n + 1) (n + 1) { b with holdFired := true } := by
  simp only [BtnState.holdDue, Bool.and_eq_true, Bool.not_eq_true'] at due
  have quiet : b.pendingShort = false := by
    cases pending : b.pendingShort with
    | false => rfl
    | true => exact absurd rfl (h.pending pending).2
  exact h.holdFired.seen_succ fun _ => ⟨due.1.1.1, quiet, fun _ => rfl⟩

theorem Held.quiet_step (h : run.Held e (n + 1) n b) (other : run.out n ≠ some e) :
    run.Held e (n + 1) (n + 1) b :=
  h.seen_succ fun event => absurd event other

/-- The invariant of every button at every poll. -/
theorem held (e : Button) (n : Nat) (span : run.time n < run.time 0 + 2 ^ 32) :
    run.Held e n n ((run.state n).btns e) := by
  induction n generalizing e with
  | zero =>
    exact ⟨rfl, Bool.noConfusion, fun _ => rfl, Bool.noConfusion, Bool.noConfusion,
      fun m _ before => absurd before (Nat.not_lt_zero m)⟩
  | succ n ih =>
    have earlier : run.time n < run.time 0 + 2 ^ 32 :=
      Nat.lt_of_le_of_lt (run.monotone n.le_succ) span
    have settled (e : Button) := (ih e earlier).settled earlier
    rcases run.poll_cases n with ⟨e', due, event, btns⟩ | ⟨-, ⟨due, event, btns⟩ | ⟨-, event, btns⟩⟩
    · rw [btns]
      rcases eq_or_ne e e' with rfl | other
      · rw [Function.update_self]
        exact (settled e).short_step due
      · rw [Function.update_of_ne other]
        exact (settled e).quiet_step fun same =>
          other (Option.some.inj (same.symm.trans event))
    · rw [btns]
      rcases eq_or_ne e .select with rfl | other
      · rw [Function.update_self]
        exact (settled .select).hold_step due
      · rw [Function.update_of_ne other]
        exact (settled e).quiet_step fun same =>
          other (Option.some.inj (same.symm.trans event))
    · rw [btns]
      exact (settled e).quiet_step fun same => nomatch same.symm.trans event

/-! ## What an event tells -/

/-- A press that counts began 20 ms after its first LOW sample. -/
theorem Held.elapsed (h : run.Held e (n + 1) n b) (span : run.time n < run.time 0 + 2 ^ 32)
    (down : b.stable = false) :
    run.low e n = true ∧
      run.time (run.since e n) + 20 + (run.clock n - b.pressStartMs).toNat ≤ run.time n := by
  have low : run.low e n = true := by
    cases low : run.low e n with
    | true => rfl
    | false => exact absurd (down.symm.trans (h.idle low)) Bool.noConfusion
  obtain ⟨p, past, begun, same⟩ := h.start down
  rw [run.since_succ_of_low low] at begun
  have order := run.monotone (Nat.le_of_lt_succ past)
  rw [same, run.elapsed span (Nat.le_of_lt_succ past)]
  exact ⟨low, by omega⟩

/-- A button that is LOW for 20 ms passes the debounce. -/
theorem debouncedPressed_of_lowFor (span : run.time n < run.time 0 + 2 ^ 32)
    (lowFor : run.LowFor e n) :
    (run.sampled n e).debouncedPressed (run.clock n) =
      true := by
  obtain ⟨i, le, low, late⟩ := lowFor
  have h := (held e n span).sampled span
  have was : run.wasLow e (n + 1) = true := low n le le_rfl
  have first : run.since e (n + 1) ≤ i :=
    run.since_le_of_low (le.trans n.le_succ) fun m after before =>
      low m after (Nat.le_of_lt_succ before)
  have order := run.monotone first
  refine Buttons.debouncedPressed_of_late (by rw [h.raw, was]; rfl) ?_
  rw [h.change was, run.elapsed span (first.trans le)]
  omega

/-- While both combo buttons are LOW for 20 ms, neither has a short to wait for. -/
theorem quiet_of_both (span : run.time n < run.time 0 + 2 ^ 32) (combo : e ≠ .select)
    (up : run.LowFor .up n) (down : run.LowFor .down n) :
    (run.settled n e).pendingShort = false := by
  have both : (run.state n).bothPressed (run.pins n) (run.clock n) = true := by
    rw [Buttons.bothPressed, debouncedPressed_of_lowFor span up,
      debouncedPressed_of_lowFor span down]
    rfl
  rw [ButtonRun.settled, Buttons.settled, both, decide_eq_true combo]
  rfl

/-- How long a press of the button lasts before its event. -/
def waitMs (e : Button) : Nat := if e = .select then 220 else 120

/-- Every event has evidence, and one press gives one: a poll that returns an event of a
button belongs to a press of this button that began 120 ms before (220 ms for SELECT) and has
not returned the event yet; and for UP and DOWN not both of them are LOW for 20 ms. -/
theorem event_of_press (run : ButtonRun) (n : Nat) (e : Button)
    (span : run.time n < run.time 0 + 2 ^ 32) (event : run.out n = some e) :
    ∃ i, run.Press e i n ∧ run.time i + waitMs e ≤ run.time n ∧
      (∀ m, i ≤ m → m < n → run.out m ≠ some e) ∧
      (e ≠ .select → ¬(run.LowFor .up n ∧ run.LowFor .down n)) := by
  have settled (e : Button) := (held e n span).settled span
  rcases run.poll_cases n with ⟨e', due, returned, -⟩ | ⟨-, ⟨due, returned, -⟩ | ⟨-, returned, -⟩⟩
  · obtain rfl : e' = e := Option.some.inj (returned.symm.trans event)
    rw [BtnState.shortDue, Bool.and_eq_true, decide_eq_true_eq] at due
    obtain ⟨pending, window⟩ := due
    obtain ⟨down, combo⟩ := (settled e').pending pending
    obtain ⟨low, elapsed⟩ := (settled e').elapsed span down
    have waited : 100 ≤
        (run.clock n -
          (run.settled n e').pressStartMs).toNat := window
    refine ⟨run.since e' n, press_since low, ?_, fun m after before again => ?_,
      fun _ both => ?_⟩
    · rw [waitMs, if_neg combo]
      omega
    · have done := ((settled e').once m (run.since_succ_of_low low ▸ after) before again).2.1
      rw [pending] at done
      cases done
    · rw [quiet_of_both span combo both.1 both.2] at pending
      cases pending
  · obtain rfl : Button.select = e := Option.some.inj (returned.symm.trans event)
    simp only [BtnState.holdDue, Bool.and_eq_true, Bool.not_eq_true', decide_eq_true_eq] at due
    obtain ⟨⟨⟨down, fresh⟩, -⟩, window⟩ := due
    obtain ⟨low, elapsed⟩ := (settled .select).elapsed span down
    have waited : 200 ≤
        (run.clock n -
          (run.settled n .select).pressStartMs).toNat := window
    refine ⟨run.since .select n, press_since low, ?_, fun m after before again => ?_,
      fun select => absurd rfl select⟩
    · rw [waitMs, if_pos rfl]
      omega
    · have done := ((settled .select).once m (run.since_succ_of_low low ▸ after) before again).2.2
      rw [fresh] at done
      cases done rfl
  · exact nomatch returned.symm.trans event

/-- UP and SELECT held from the first poll on, with 100 ms between the polls. -/
def heldUp : ButtonRun where
  before := Buttons.zero
  time n := 100 * n
  pins _ gpio := decide (gpio = Button.down.gpio)
  monotone _ _ le := Nat.mul_le_mul_left 100 le

/-- The third poll is the first past the combo window. -/
theorem event_of_press_heldUp :
    ∃ i, heldUp.Press .up i 2 ∧ heldUp.time i + waitMs .up ≤ heldUp.time 2 ∧
      (∀ m, i ≤ m → m < 2 → heldUp.out m ≠ some .up) ∧
      (Button.up ≠ .select → ¬(heldUp.LowFor .up 2 ∧ heldUp.LowFor .down 2)) :=
  event_of_press heldUp 2 .up (by decide) (by decide +kernel)

end ButtonRun

end MsxPulse.Firmware
