import Mathlib.Algebra.Group.Nat.Defs
import Mathlib.Order.Monotone.Basic
import MsxPulse.Library.Streak
import MsxPulse.Firmware.Buttons

/-!
# Polls with the reset combo

main.c sets the combo to UP and DOWN, held for 500 ms. Then the first pass never
returns, and a poll is what the two first passes make of each button, followed by at
most one event.
-/

namespace MsxPulse.Firmware

namespace Buttons

/-- The combo of main.c. -/
structure ResetCombo (c : Combo) : Prop where
  a : c.a = some .up
  b : c.b = some .down
  hold : c.holdMs = 500

namespace ResetCombo

variable {c : Combo} (h : ResetCombo c)

include h

theorem isComboBtn (e : Button) : c.isComboBtn e = decide (e ≠ .select) := by
  rw [Combo.isComboBtn, h.a, h.b, h.hold]
  cases e <;> decide

theorem debounce_event (e : Button) (b : BtnState) (raw : Bool) (now : U32) :
    (debounce c e b raw now).2 = none := by
  unfold debounce
  rw [h.isComboBtn]
  cases e <;> simp only [ne_eq, reduceCtorEq, not_false_eq_true, not_true_eq_false, decide_true,
    decide_false, if_true, Bool.false_eq_true, if_false] <;> split_ifs <;> rfl

theorem bothDown (now : U32) : ResetCombo (c.bothDown now) := by
  have opened : ResetCombo (c.openEpisode now) := by
    unfold Combo.openEpisode
    split
    · exact h
    · exact ⟨h.a, h.b, h.hold⟩
  unfold Combo.bothDown Combo.fire
  split
  · exact ⟨opened.a, opened.b, opened.hold⟩
  · exact opened

end ResetCombo

/-- What the first pass makes of a button. -/
def sampled (s : Buttons) (pins : Nat → Bool) (now : U32) (e : Button) : BtnState :=
  (debounce s.combo e (s.btns e) (pins e.gpio) now).1

/-- Both combo buttons are down, debounced. -/
def bothPressed (s : Buttons) (pins : Nat → Bool) (now : U32) : Bool :=
  (s.sampled pins now .up).debouncedPressed now && (s.sampled pins now .down).debouncedPressed now

/-- What the first two passes make of a button. -/
def settled (s : Buttons) (pins : Nat → Bool) (now : U32) (e : Button) : BtnState :=
  if s.bothPressed pins now && decide (e ≠ .select) then (s.sampled pins now e).clearShort
  else s.sampled pins now e

variable {s : Buttons} (h : ResetCombo s.combo) (pins : Nat → Bool) (now : U32)

include h

theorem pass1_eq : pass1 pins now Button.all s = ({ s with btns := s.sampled pins now }, none) := by
  have quiet (e : Button) (b : BtnState) : (debounce s.combo e b (pins e.gpio) now).2 = none :=
    h.debounce_event e b (pins e.gpio) now
  simp only [Button.all, pass1, set, quiet]
  refine congrArg (fun btns => (({ s with btns } : Buttons), none)) ?_
  funext e
  cases e <;> simp [sampled]

theorem pass2_btns (e : Button) :
    ((({ s with btns := s.sampled pins now } : Buttons).pass2 now).btns e) =
      s.settled pins now e := by
  simp only [pass2, h.a, h.b, h.hold]
  rw [if_pos (by decide)]
  unfold settled
  by_cases both : s.bothPressed pins now = true
  · have down := both
    unfold bothPressed at down
    rw [if_pos down, both]
    cases e <;> simp [set]
  · have down := both
    unfold bothPressed at down
    rw [if_neg down, Bool.eq_false_iff.mpr both]
    simp

theorem pass2_combo :
    ResetCombo (({ s with btns := s.sampled pins now } : Buttons).pass2 now).combo := by
  unfold pass2
  rw [h.a, h.b]
  simp only []
  split_ifs
  · exact h.bothDown now
  · exact ⟨h.a, h.b, h.hold⟩
  · exact h

/-- A poll returns a deferred short that is due, or else the hold of SELECT if that is
due, or else nothing. -/
theorem poll_cases :
    ResetCombo (s.poll pins now).1.combo ∧
      ((∃ e, (s.settled pins now e).shortDue now = true ∧ (s.poll pins now).2 = some e ∧
          (s.poll pins now).1.btns =
            Function.update (s.settled pins now) e (s.settled pins now e).clearShort) ∨
        ((∀ e, (s.settled pins now e).shortDue now = false) ∧
          (((s.settled pins now .select).holdDue now = true ∧
              (s.poll pins now).2 = some .select ∧
              (s.poll pins now).1.btns = Function.update (s.settled pins now) .select
                { s.settled pins now .select with holdFired := true }) ∨
            ((s.settled pins now .select).holdDue now = false ∧ (s.poll pins now).2 = none ∧
              (s.poll pins now).1.btns = s.settled pins now)))) := by
  have combo := pass2_combo h pins now
  have btns : (({ s with btns := s.sampled pins now } : Buttons).pass2 now).btns =
      s.settled pins now := funext (pass2_btns h pins now)
  unfold poll
  rw [pass1_eq h]
  simp only []
  generalize ({ s with btns := s.sampled pins now } : Buttons).pass2 now = s' at combo btns
  have every (e : Button) : e ∈ Button.all := by cases e <;> decide
  cases due : s'.pass3 now with
  | some e =>
    have short : (s'.btns e).shortDue now = true :=
      List.find?_some (p := fun e => (s'.btns e).shortDue now) due
    exact ⟨combo, .inl ⟨e, btns ▸ short, rfl, by rw [← btns]; rfl⟩⟩
  | none =>
    have none_due (e : Button) : (s'.btns e).shortDue now = false := by
      simpa using List.find?_eq_none.mp due e (every e)
    cases hold : s'.pass4 now with
    | some e =>
      have held := List.find?_some hold
      rw [Bool.and_eq_true, decide_eq_true_eq] at held
      obtain ⟨rfl, held⟩ := held
      exact ⟨combo, .inr ⟨fun e => btns ▸ none_due e,
        .inl ⟨btns ▸ held, rfl, by rw [← btns]; rfl⟩⟩⟩
    | none =>
      have loose : (s'.btns .select).holdDue now = false := by
        simpa using List.find?_eq_none.mp hold .select (every .select)
      exact ⟨combo, .inr ⟨fun e => btns ▸ none_due e, .inr ⟨btns ▸ loose, rfl, btns⟩⟩⟩

end Buttons

/-! ## One button in the first pass -/

namespace Buttons

variable {c : Combo} {e : Button} {b : BtnState} {now : U32}

/-- The first pass has taken the level and armed the button. -/
structure Taken (b : BtnState) (raw : Bool) (now : U32) (b' : BtnState) : Prop where
  level : b'.prevRaw = raw
  stamp : b'.lastChangeMs = if raw = b.prevRaw then b.lastChangeMs else now
  armed : b'.armed = (b.armed || (raw && decide (now - b'.lastChangeMs ≥ debounceMs)))
  waits : b'.pendingShort = b.pendingShort
  stable : b'.stable = b.stable

theorem taken (b : BtnState) (raw : Bool) (now : U32) :
    Taken b raw now ((b.sample raw now).arm now) := by
  have level : (b.sample raw now).prevRaw = raw := by
    unfold BtnState.sample
    split_ifs <;> simp_all
  have kept : (b.sample raw now).lastChangeMs = (if raw = b.prevRaw then b.lastChangeMs else now) ∧
      (b.sample raw now).armed = b.armed ∧ (b.sample raw now).pendingShort = b.pendingShort ∧
      (b.sample raw now).stable = b.stable := by
    unfold BtnState.sample
    split_ifs <;> simp_all
  obtain ⟨stamp, armed, waits, stable⟩ := kept
  unfold BtnState.arm
  split
  · rename_i due
    rw [level] at due
    exact ⟨level, stamp, (Bool.or_eq_true_iff.mpr (.inr due)).symm, waits, stable⟩
  · rename_i due
    rw [level, Bool.not_eq_true] at due
    refine ⟨level, stamp, ?_, waits, stable⟩
    rw [due, Bool.or_false, armed]

/-- A HIGH sample releases the button. -/
theorem debounce_high (c : Combo) (e : Button) (b : BtnState) (now : U32) :
    ∃ b' : BtnState, (debounce c e b true now).1 = b'.release ∧ b'.prevRaw = true ∧
      (b.armed = true → b'.armed = true) := by
  have h := taken b true now
  have up : ((b.sample true now).arm now).debouncedPressed now = false := by
    simp [BtnState.debouncedPressed, h.level]
  refine ⟨(b.sample true now).arm now, ?_, h.level, fun armed => ?_⟩
  · simp only [debounce, up]
    rfl
  · rw [h.armed, armed, Bool.true_or]

/-- The first LOW sample after a HIGH one starts the debounce time. -/
theorem debounce_fresh (c : Combo) (e : Button) (high : b.prevRaw = true) (now : U32) :
    (debounce c e b false now).1 =
      BtnState.release { b with prevRaw := false, lastChangeMs := now, heldReported := false } := by
  have sampled : (b.sample false now).arm now =
      { b with prevRaw := false, lastChangeMs := now, heldReported := false } := by
    simp [BtnState.sample, BtnState.arm, high]
  have up : BtnState.debouncedPressed
      { b with prevRaw := false, lastChangeMs := now, heldReported := false } now = false := by
    simp [BtnState.debouncedPressed, debounceMs]
  simp only [debounce, sampled, up]
  rfl

theorem debounce_prevRaw (c : Combo) (e : Button) (b : BtnState) (raw : Bool) (now : U32) :
    (debounce c e b raw now).1.prevRaw = raw := by
  have level := (taken b raw now).level
  unfold debounce
  simp only []
  split_ifs <;> exact level

theorem debounce_armed (c : Combo) (e : Button) (armed : b.armed = true) (raw : Bool) (now : U32) :
    (debounce c e b raw now).1.armed = true := by
  have kept : ((b.sample raw now).arm now).armed = true := by
    rw [(taken b raw now).armed, armed, Bool.true_or]
  unfold debounce
  simp only []
  split_ifs <;> exact kept

/-- SELECT never waits for the combo window. -/
theorem debounce_select_quiet (h : ResetCombo c) (quiet : b.pendingShort = false) (raw : Bool)
    (now : U32) : (debounce c .select b raw now).1.pendingShort = false := by
  have kept : ((b.sample raw now).arm now).pendingShort = false := by
    rw [(taken b raw now).waits, quiet]
  have combo : c.isComboBtn .select = false := h.isComboBtn .select
  unfold debounce
  simp only [combo, Bool.false_eq_true, if_false, if_true]
  split_ifs <;> first | exact kept | rfl

theorem sample_still_low (low : b.prevRaw = false) (now : U32) :
    (b.sample false now).arm now = b := by
  simp [BtnState.sample, BtnState.arm, low]

/-- Inside the debounce time a LOW button counts as released. -/
theorem debounce_early (c : Combo) (e : Button) (low : b.prevRaw = false)
    (early : (now - b.lastChangeMs).toNat < 20) :
    (debounce c e b false now).1 = b.release := by
  have up : b.debouncedPressed now = false := by
    have small : ¬ now - b.lastChangeMs ≥ debounceMs := Nat.not_le_of_lt early
    simp [BtnState.debouncedPressed, small]
  simp only [debounce, sample_still_low low, up]
  rfl

theorem debouncedPressed_of_late (low : b.prevRaw = false)
    (late : 20 ≤ (now - b.lastChangeMs).toNat) : b.debouncedPressed now = true := by
  have large : now - b.lastChangeMs ≥ debounceMs := late
  simp [BtnState.debouncedPressed, low, large]

/-- Past the debounce time a released, armed button begins a press. -/
theorem debounce_new (h : ResetCombo c) (e : Button) (low : b.prevRaw = false)
    (late : 20 ≤ (now - b.lastChangeMs).toNat) (stable : b.stable = true) (armed : b.armed = true) :
    (debounce c e b false now).1 =
      { b.press now with pendingShort := if e = .select then b.pendingShort else true } := by
  have combo := h.isComboBtn e
  simp only [debounce, sample_still_low low, debouncedPressed_of_late low late, stable, armed,
    combo]
  cases e <;> rfl

/-- Past the debounce time any other button stays as it is. -/
theorem debounce_kept (c : Combo) (e : Button) (low : b.prevRaw = false)
    (late : 20 ≤ (now - b.lastChangeMs).toNat) (kept : (b.stable && b.armed) = false) :
    (debounce c e b false now).1 = b := by
  simp only [debounce, sample_still_low low, debouncedPressed_of_late low late, kept]
  rfl

end Buttons

/-! ## Runs -/

open Library

/-- The difference of two readings of the timer, at any width. -/
theorem ofNat_sub_ofNat {w m n : Nat} (le : m ≤ n) :
    BitVec.ofNat w n - BitVec.ofNat w m = BitVec.ofNat w (n - m) := by
  obtain ⟨d, rfl⟩ := Nat.exists_eq_add_of_le le
  rw [BitVec.ofNat_add, BitVec.add_comm, BitVec.add_sub_cancel, Nat.add_sub_cancel_left]

/-- Polls at non-decreasing times (in milliseconds, not reduced to the timer's width),
after what main.c does to the buttons. -/
structure ButtonRun where
  before : Buttons
  time : Nat → Nat
  pins : Nat → Nat → Bool
  monotone : Monotone time

namespace ButtonRun

variable (run : ButtonRun)

/-- `to_ms_since_boot(get_absolute_time())` -/
def clock (n : Nat) : U32 := BitVec.ofNat 32 (run.time n)

/-- The state before poll `n`. -/
def state : Nat → Buttons
  | 0 => run.before.init.setCombo (some .up) (some .down) 500
  | n + 1 => ((state n).poll (run.pins n) (run.clock n)).1

/-- What the first pass of poll `n` makes of a button. -/
abbrev sampled (n : Nat) (e : Button) : BtnState :=
  (run.state n).sampled (run.pins n) (run.clock n) e

/-- What the first two passes of poll `n` make of a button. -/
abbrev settled (n : Nat) (e : Button) : BtnState :=
  (run.state n).settled (run.pins n) (run.clock n) e

/-- What poll `n` returns. -/
def out (n : Nat) : Option Button := ((run.state n).poll (run.pins n) (run.clock n)).2

/-- Poll `n` samples the button LOW. -/
def low (e : Button) (n : Nat) : Bool := !run.pins n e.gpio

/-- The last poll before `n` sampled the button LOW. -/
def wasLow (e : Button) : Nat → Bool
  | 0 => false
  | n + 1 => run.low e n

/-- Where the run of LOW samples that reaches up to poll `n` began; `n` itself if the
poll before it sampled HIGH. -/
def since (e : Button) : Nat → Nat
  | 0 => 0
  | n + 1 => if run.low e n then since e n else n + 1

theorem since_eq (e : Button) (n : Nat) : run.since e n = streak (run.low e) n := by
  induction n with
  | zero => rfl
  | succ n ih => rw [since, streak, ih]

theorem wasLow_eq (e : Button) (n : Nat) : run.wasLow e n = wasTrue (run.low e) n := by
  cases n with
  | zero => rfl
  | succ n => rfl

theorem since_le (e : Button) (n : Nat) : run.since e n ≤ n :=
  run.since_eq e n ▸ streak_le (run.low e) n

theorem since_succ_of_low {e : Button} {n : Nat} (low : run.low e n = true) :
    run.since e (n + 1) = run.since e n := by
  rw [since, if_pos low]

theorem since_of_high {e : Button} {n : Nat} (high : run.wasLow e n = false) :
    run.since e n = n := by
  rw [since_eq]
  rw [wasLow_eq] at high
  exact streak_of_not high

/-- Between its beginning and `n` the run has LOW samples only. -/
theorem low_of_since {e : Button} {n m : Nat} (after : run.since e n ≤ m) (before : m < n) :
    run.low e m = true := by
  rw [since_eq] at after
  exact true_of_streak after before

/-- Before its beginning stands a HIGH sample, or no sample. -/
theorem wasLow_since (e : Button) (n : Nat) : run.wasLow e (run.since e n) = false := by
  rw [wasLow_eq, since_eq]
  exact wasTrue_streak (run.low e) n

theorem since_le_of_low {e : Button} {i n : Nat} (le : i ≤ n)
    (low : ∀ m, i ≤ m → m < n → run.low e m = true) : run.since e n ≤ i := by
  rw [since_eq]
  exact streak_le_of_true le low

theorem resetCombo (n : Nat) : Buttons.ResetCombo (run.state n).combo := by
  induction n with
  | zero => exact ⟨rfl, rfl, rfl⟩
  | succ n ih => exact (Buttons.poll_cases ih (run.pins n) (run.clock n)).1

/-- What poll `n` returns and what it makes of the buttons. -/
theorem poll_cases (n : Nat) :
    (∃ e, (run.settled n e).shortDue (run.clock n) = true ∧ run.out n = some e ∧
        (run.state (n + 1)).btns =
          Function.update (run.settled n) e (run.settled n e).clearShort) ∨
      ((∀ e, (run.settled n e).shortDue (run.clock n) = false) ∧
        (((run.settled n .select).holdDue (run.clock n) = true ∧ run.out n = some .select ∧
            (run.state (n + 1)).btns = Function.update (run.settled n) .select
              { run.settled n .select with holdFired := true }) ∨
          ((run.settled n .select).holdDue (run.clock n) = false ∧ run.out n = none ∧
            (run.state (n + 1)).btns = run.settled n))) :=
  (Buttons.poll_cases (run.resetCombo n) (run.pins n) (run.clock n)).2

/-- Within the timer's period, differences of clocks are differences of times. -/
theorem elapsed {n p : Nat} (span : run.time n < run.time 0 + 2 ^ 32) (earlier : p ≤ n) :
    (run.clock n - run.clock p).toNat = run.time n - run.time p := by
  have order : run.time p ≤ run.time n := run.monotone earlier
  have first : run.time 0 ≤ run.time p := run.monotone (Nat.zero_le p)
  rw [clock, clock, ofNat_sub_ofNat order, BitVec.toNat_ofNat, Nat.mod_eq_of_lt (by omega)]

end ButtonRun

end MsxPulse.Firmware
