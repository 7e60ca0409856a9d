import MsxPulse.Firmware.Buttons.Polls

/-!
# When SELECT is armed

With any combo the first pass can leave at an event of UP or DOWN, and then this poll
takes no sample of SELECT. What counts for arming is the run of HIGH samples since the
last LOW one, or since the first poll: there the line has the level and the time stamp
that `buttons_init` assumed.
-/

namespace MsxPulse.Firmware

/-! ## One poll on one button -/

/-- The buttons that the first pass takes before. -/
def Button.before : Button → List Button
  | up => []
  | down => [up]
  | select => [up, down]

namespace Buttons

variable {pins : Nat → Bool} {now : U32} {s : Buttons} {e : Button}

theorem pass1_append (pins : Nat → Bool) (now : U32) (first rest : List Button) (s : Buttons) :
    pass1 pins now (first ++ rest) s =
      match pass1 pins now first s with
      | (s, some event) => (s, some event)
      | (s, none) => pass1 pins now rest s := by
  induction first generalizing s with
  | nil => rfl
  | cons o first ih =>
    simp only [List.cons_append, pass1]
    generalize debounce s.combo o (s.btns o) (pins o.gpio) now = r
    obtain ⟨b, event⟩ := r
    cases event with
    | some event => rfl
    | none => exact ih (s.set o b)

/-- The first pass leaves the combo and the buttons that are not its own. -/
theorem pass1_frame (pins : Nat → Bool) (now : U32) (es : List Button) (s : Buttons) :
    (pass1 pins now es s).1.combo = s.combo ∧
      ∀ o, o ∉ es → (pass1 pins now es s).1.btns o = s.btns o := by
  induction es generalizing s with
  | nil => exact ⟨rfl, fun _ _ => rfl⟩
  | cons e es ih =>
    simp only [pass1]
    generalize debounce s.combo e (s.btns e) (pins e.gpio) now = r
    obtain ⟨b, event⟩ := r
    have apart (o : Button) (other : o ∉ e :: es) : (s.set e b).btns o = s.btns o :=
      set_btns_of_ne s (List.ne_of_not_mem_cons other) b
    cases event with
    | some event => exact ⟨rfl, apart⟩
    | none =>
      obtain ⟨combo, btns⟩ := ih (s.set e b)
      exact ⟨combo, fun o other =>
        (btns o (List.not_mem_of_not_mem_cons other)).trans (apart o other)⟩

theorem debounce_event_self {c : Combo} {b : BtnState} {raw : Bool} {o : Button}
    (event : (debounce c e b raw now).2 = some o) : o = e ∧ e ≠ .select := by
  unfold debounce at event
  simp only [] at event
  split_ifs at event with pressed fresh combo select
  exact ⟨(Option.some.inj event).symm, select⟩

/-- An event of the first pass is one of UP or DOWN that passes the debounce. -/
theorem pass1_event (pins : Nat → Bool) (now : U32) (es : List Button) (s : Buttons) {o : Button}
    (event : (pass1 pins now es s).2 = some o) : o ∈ es ∧ o ≠ .select := by
  induction es generalizing s with
  | nil => exact nomatch event
  | cons e es ih =>
    simp only [pass1] at event
    have self (o : Button) (own : (debounce s.combo e (s.btns e) (pins e.gpio) now).2 = some o) :
        o = e ∧ e ≠ .select := debounce_event_self own
    generalize debounce s.combo e (s.btns e) (pins e.gpio) now = r at event self
    obtain ⟨b, returned⟩ := r
    cases returned with
    | some o' =>
      obtain rfl : o' = o := Option.some.inj event
      obtain ⟨rfl, other⟩ := self o' rfl
      exact ⟨List.mem_cons_self, other⟩
    | none =>
      obtain ⟨mem, other⟩ := ih (s.set e b) event
      exact ⟨List.mem_cons_of_mem e mem, other⟩

/-- What the passes after the first one make of a button. -/
def Dispatched (b b' : BtnState) : Prop :=
  ∃ pending hold, b' = { b with pendingShort := pending, holdFired := hold } ∧
    (pending = true → b.pendingShort = true)

theorem Dispatched.refl (b : BtnState) : Dispatched b b := ⟨b.pendingShort, b.holdFired, rfl, id⟩

theorem Dispatched.clearShort {b b' : BtnState} (h : Dispatched b b') :
    Dispatched b b'.clearShort := by
  obtain ⟨pending, hold, rfl, -⟩ := h
  exact ⟨false, hold, rfl, Bool.noConfusion⟩

theorem Dispatched.holdFired {b b' : BtnState} (h : Dispatched b b') :
    Dispatched b { b' with holdFired := true } := by
  obtain ⟨pending, hold, rfl, waits⟩ := h
  exact ⟨pending, true, rfl, waits⟩

theorem dispatched_set {b b' : BtnState} (h : Dispatched b (s.btns e)) (o : Button)
    (there : o = e → Dispatched b b') : Dispatched b ((s.set o b').btns e) := by
  rcases eq_or_ne e o with rfl | other
  · rw [set_btns_self]
    exact there rfl
  · rw [set_btns_of_ne s other]
    exact h

theorem pass2_dispatched (s : Buttons) (now : U32) (e : Button) :
    Dispatched (s.btns e) ((s.pass2 now).btns e) := by
  unfold pass2
  split
  · split
    · split
      · refine dispatched_set (dispatched_set (.refl _) _ ?_) _ ?_
        · rintro rfl
          exact (Dispatched.refl _).clearShort
        · rintro rfl
          exact (dispatched_set (.refl _) _ fun same => by
            subst same
            exact (Dispatched.refl _).clearShort).clearShort
      · exact .refl _
    · exact .refl _
  · exact .refl _

theorem poll_of_event {s' : Buttons} {o : Button}
    (first : pass1 pins now Button.all s = (s', some o)) : s.poll pins now = (s', some o) := by
  rw [poll, first]

/-- The passes after the first one; SELECT comes back only from a press that counts. -/
theorem poll_of_none {s' : Buttons} (first : pass1 pins now Button.all s = (s', none)) :
    (∀ e, Dispatched (s'.btns e) ((s.poll pins now).1.btns e)) ∧
      ((s.poll pins now).2 = some .select →
        (s'.btns .select).pendingShort = true ∨ (s'.btns .select).stable = false) := by
  have second := pass2_dispatched s' now
  rw [poll, first]
  simp only []
  cases due : (s'.pass2 now).pass3 now with
  | some o =>
    refine ⟨fun e => dispatched_set (second e) o fun same => ?_, fun event => .inl ?_⟩
    · subst same
      exact (second o).clearShort
    · obtain rfl : o = .select := Option.some.inj event
      have short := List.find?_some (p := fun e => ((s'.pass2 now).btns e).shortDue now) due
      rw [BtnState.shortDue, Bool.and_eq_true] at short
      obtain ⟨pending, hold, same, waits⟩ := second .select
      rw [same] at short
      exact waits short.1
  | none =>
    cases hold : (s'.pass2 now).pass4 now with
    | none => exact ⟨second, nofun⟩
    | some o =>
      refine ⟨fun e => dispatched_set (second e) o fun same => ?_, fun event => .inr ?_⟩
      · subst same
        exact (second o).holdFired
      · obtain rfl : o = .select := Option.some.inj event
        have held := List.find?_some hold
        simp only [BtnState.holdDue, Bool.and_eq_true, Bool.not_eq_true'] at held
        obtain ⟨pending, hold, same, -⟩ := second .select
        rw [same] at held
        exact held.2.1.1.1

/-- The poll takes a sample of the button: no event leaves the first pass before. -/
def samples (s : Buttons) (pins : Nat → Bool) (now : U32) (e : Button) : Bool :=
  (pass1 pins now e.before s).2.isNone

/-- A poll that takes no sample of a button leaves it alone. -/
theorem poll_of_skipped (skipped : s.samples pins now e = false) :
    (s.poll pins now).1.btns e = s.btns e ∧ (s.poll pins now).2 ≠ some .select := by
  have all : ∃ rest, Button.all = e.before ++ rest := by cases e <;> exact ⟨_, rfl⟩
  obtain ⟨rest, all⟩ := all
  have apart : e ∉ e.before := by cases e <;> decide
  have frame := (pass1_frame pins now e.before s).2 e apart
  have named (o : Button) := pass1_event pins now e.before s (o := o)
  have whole := pass1_append pins now e.before rest s
  rw [← all] at whole
  unfold samples at skipped
  generalize pass1 pins now e.before s = first at skipped frame named whole
  obtain ⟨s', event⟩ := first
  cases event with
  | none => cases skipped
  | some o =>
    rw [poll_of_event whole]
    exact ⟨frame, fun same => (named o rfl).2 (Option.some.inj same)⟩

/-- A poll that samples a button debounces it, and then at most dispatches its event. -/
theorem poll_of_sampled (sampled : s.samples pins now e = true) :
    Dispatched (debounce s.combo e (s.btns e) (pins e.gpio) now).1 ((s.poll pins now).1.btns e) ∧
      ((s.poll pins now).2 = some .select → e = .select →
        (debounce s.combo e (s.btns e) (pins e.gpio) now).1.pendingShort = true ∨
          (debounce s.combo e (s.btns e) (pins e.gpio) now).1.stable = false) := by
  have all : ∃ rest, Button.all = e.before ++ e :: rest ∧ e ∉ rest ∧ e ∉ e.before := by
    cases e <;> exact ⟨_, rfl, by decide, by decide⟩
  obtain ⟨rest, all, after, before⟩ := all
  obtain ⟨combo, btns⟩ := pass1_frame pins now e.before s
  have whole := pass1_append pins now e.before (e :: rest) s
  rw [← all] at whole
  unfold samples at sampled
  generalize pass1 pins now e.before s = first at sampled combo btns whole
  obtain ⟨s', event⟩ := first
  cases event with
  | some o => cases sampled
  | none =>
    have combo : s'.combo = s.combo := combo
    have own : s'.btns e = s.btns e := btns e before
    simp only [pass1, combo, own] at whole
    have self (o : Button) (event : (debounce s.combo e (s.btns e) (pins e.gpio) now).2 = some o) :
        o = e ∧ e ≠ .select := debounce_event_self event
    generalize debounce s.combo e (s.btns e) (pins e.gpio) now = r at whole self
    obtain ⟨b, event⟩ := r
    cases event with
    | some o =>
      obtain ⟨rfl, other⟩ := self o rfl
      rw [poll_of_event whole, set_btns_self]
      exact ⟨.refl b, fun _ same => absurd same other⟩
    | none =>
      simp only [] at whole
      have kept := (pass1_frame pins now rest (s'.set e b)).2 e after
      have named (o : Button) := pass1_event pins now rest (s'.set e b) (o := o)
      rw [set_btns_self] at kept
      generalize pass1 pins now rest (s'.set e b) = last at whole kept named
      obtain ⟨s'', event⟩ := last
      have kept : s''.btns e = b := kept
      cases event with
      | some o =>
        rw [poll_of_event whole, kept]
        exact ⟨.refl b, fun event => absurd (Option.some.inj event) (named o rfl).2⟩
      | none =>
        obtain ⟨dispatched, select⟩ := poll_of_none whole
        rw [← kept]
        refine ⟨dispatched e, fun event same => ?_⟩
        subst same
        exact select event

theorem Taken.low {b b' : BtnState} {raw : Bool} (h : Taken b raw now b')
    (pressed : b'.debouncedPressed now = true) :
    raw = false ∧ 20 ≤ (now - b'.lastChangeMs).toNat ∧ b'.armed = b.armed := by
  rw [BtnState.debouncedPressed, Bool.and_eq_true, Bool.not_eq_true', decide_eq_true_eq] at pressed
  have low : raw = false := h.level.symm.trans pressed.1
  refine ⟨low, pressed.2, ?_⟩
  rw [h.armed, low, Bool.false_and, Bool.or_false]

/-- What a poll that samples a button makes of the fields that arm it. -/
theorem debounce_fields (c : Combo) (e : Button) (b : BtnState) (raw : Bool) (now : U32) :
    (debounce c e b raw now).1.lastChangeMs = (if raw = b.prevRaw then b.lastChangeMs else now) ∧
      (debounce c e b raw now).1.armed =
        (b.armed || (raw &&
          decide (now - (debounce c e b raw now).1.lastChangeMs ≥ debounceMs))) := by
  have h := taken b raw now
  have same : (debounce c e b raw now).1.lastChangeMs =
        ((b.sample raw now).arm now).lastChangeMs ∧
      (debounce c e b raw now).1.armed = ((b.sample raw now).arm now).armed := by
    unfold debounce
    simp only []
    split_ifs <;> exact ⟨rfl, rfl⟩
  rw [same.1, same.2]
  exact ⟨h.stamp, h.armed⟩

/-- A press that waits or holds was armed before. -/
theorem debounce_press (c : Combo) (e : Button) {b : BtnState} (raw : Bool) (now : U32)
    (was : b.pendingShort = true ∨ b.stable = false → b.armed = true)
    (press : (debounce c e b raw now).1.pendingShort = true ∨
      (debounce c e b raw now).1.stable = false) : b.armed = true := by
  have h := taken b raw now
  unfold debounce at press
  simp only [] at press
  generalize (b.sample raw now).arm now = first at h press
  split_ifs at press with pressed fresh
  · exact (h.low pressed).2.2.symm.trans (Bool.and_eq_true_iff.mp fresh).2
  · exact (h.low pressed).2.2.symm.trans (Bool.and_eq_true_iff.mp fresh).2
  · exact (h.low pressed).2.2.symm.trans (Bool.and_eq_true_iff.mp fresh).2
  · rw [h.waits, h.stable] at press
    exact was press
  · exact absurd press (by simp [BtnState.release])

/-- An event in the first pass comes from a LOW line past the debounce time. -/
theorem debounce_event {c : Combo} {b : BtnState} {raw : Bool} {o : Button}
    (event : (debounce c e b raw now).2 = some o) :
    raw = false ∧ 20 ≤ (now - (debounce c e b raw now).1.lastChangeMs).toNat := by
  have h := taken b raw now
  unfold debounce at event ⊢
  simp only [] at event ⊢
  generalize (b.sample raw now).arm now = first at h event ⊢
  split_ifs at event ⊢ with pressed
  exact ⟨(h.low pressed).1, (h.low pressed).2.1⟩

/-- The first pass returns nothing if no button has an event. -/
theorem pass1_quiet {es : List Button} (once : es.Nodup)
    (quiet : ∀ o ∈ es, (debounce s.combo o (s.btns o) (pins o.gpio) now).2 = none) :
    (pass1 pins now es s).2 = none := by
  induction es generalizing s with
  | nil => rfl
  | cons e es ih =>
    have first := quiet e List.mem_cons_self
    simp only [pass1, first]
    refine ih (List.nodup_cons.mp once).2 fun o mem => ?_
    have other : o ≠ e := fun same => (List.nodup_cons.mp once).1 (same ▸ mem)
    rw [set_btns_of_ne s other]
    exact quiet o (List.mem_cons_of_mem e mem)

end Buttons

/-! ## Runs with any combo -/

/-- Polls at non-decreasing times (in milliseconds, not reduced to the timer's width),
after `buttons_init` and any setting of the combo. -/
structure PollRun where
  before : Buttons
  a : Option Button
  b : Option Button
  holdMs : U32
  time : Nat → Nat
  pins : Nat → Nat → Bool
  monotone : Monotone time

namespace PollRun

variable (run : PollRun)

def clock (n : Nat) : U32 := BitVec.ofNat 32 (run.time n)

/-- The state before poll `n`. -/
def state : Nat → Buttons
  | 0 => run.before.init.setCombo run.a run.b run.holdMs
  | n + 1 => ((state n).poll (run.pins n) (run.clock n)).1

/-- What poll `n` returns. -/
def out (n : Nat) : Option Button := ((run.state n).poll (run.pins n) (run.clock n)).2

/-- The line of the button is HIGH at poll `n`. -/
def high (e : Button) (n : Nat) : Bool := run.pins n e.gpio

/-- Poll `n` samples the button. -/
def samples (e : Button) (n : Nat) : Bool := (run.state n).samples (run.pins n) (run.clock n) e

/-- Before poll `n`, samples over 20 ms or more all had the button HIGH. -/
def StableRelease (e : Button) (n : Nat) : Prop :=
  ∃ i j, i ≤ j ∧ j < n ∧ run.samples e i = true ∧ run.samples e j = true ∧
    (∀ k, i ≤ k → k ≤ j → run.samples e k = true → run.high e k = true) ∧
    run.time i + 20 ≤ run.time j

/-- For as long as a button has been HIGH since the first poll, the clock gives it no 20 ms
before they have passed. -/
def StartCounts (e : Button) : Prop :=
  ∀ n, run.time n < run.time 0 + 20 → (∀ k ≤ n, run.high e k = true) → (run.clock n).toNat < 20

/-- A button's level and time stamp with respect to the samples before poll `n`. -/
structure Stamped (e : Button) (n : Nat) (b : BtnState) : Prop where
  assumed : (∀ k < n, run.samples e k = true → run.high e k = true) →
    b.prevRaw = true ∧ b.lastChangeMs = 0
  changed : ¬(∀ k < n, run.samples e k = true → run.high e k = true) →
    ∃ i < n, run.samples e i = true ∧ b.lastChangeMs = run.clock i ∧
      ∀ k, i ≤ k → k < n → run.samples e k = true → run.high e k = b.prevRaw

variable {run} {e : Button} {n i : Nat} {b b' : BtnState}

/-- The clock shows at most the time that has passed. -/
theorem elapsed_le (run : PollRun) (earlier : i ≤ n) :
    (run.clock n - run.clock i).toNat ≤ run.time n - run.time i := by
  rw [clock, clock, ofNat_sub_ofNat (run.monotone earlier), BitVec.toNat_ofNat]
  exact Nat.mod_le _ _

theorem clock_sub_zero (run : PollRun) (n : Nat) : run.clock n - (0 : U32) = run.clock n :=
  BitVec.sub_zero (run.clock n)

theorem Stamped.skip (h : run.Stamped e n b) (skipped : run.samples e n = false) :
    run.Stamped e (n + 1) b := by
  have past {k : Nat} (le : k < n + 1) (sampled : run.samples e k = true) : k < n := by
    refine Nat.lt_of_le_of_ne (Nat.le_of_lt_succ le) fun same => ?_
    rw [same, skipped] at sampled
    cases sampled
  refine ⟨fun all => h.assumed fun k le => all k (Nat.lt_succ_of_lt le), fun some_low => ?_⟩
  obtain ⟨i, le, sampled, stamp, still⟩ :=
    h.changed fun all => some_low fun k le sampled => all k (past le sampled) sampled
  exact ⟨i, Nat.lt_succ_of_lt le, sampled, stamp,
    fun k after before sampled => still k after (past before sampled) sampled⟩

/-- The first pass takes the level and the time of a change. -/
theorem Stamped.take (h : run.Stamped e n b) (sampled : run.samples e n = true)
    (level : b'.prevRaw = run.high e n)
    (stamp : b'.lastChangeMs =
      if run.high e n = b.prevRaw then b.lastChangeMs else run.clock n) :
    run.Stamped e (n + 1) b' := by
  constructor
  · intro all
    obtain ⟨was, zero⟩ := h.assumed fun k le => all k (Nat.lt_succ_of_lt le)
    have now := all n n.lt_succ_self sampled
    rw [stamp, level, now, was]
    exact ⟨rfl, zero⟩
  · intro some_low
    by_cases same : run.high e n = b.prevRaw
    · have before : ¬∀ k < n, run.samples e k = true → run.high e k = true := fun all => by
        refine some_low fun k le taken => ?_
        rcases Nat.lt_succ_iff_lt_or_eq.mp le with earlier | rfl
        · exact all k earlier taken
        · exact same.trans (h.assumed all).1
      obtain ⟨i, le, first, change, still⟩ := h.changed before
      rw [if_pos same, change] at stamp
      refine ⟨i, Nat.lt_succ_of_lt le, first, stamp, fun k after last taken => ?_⟩
      rcases Nat.lt_succ_iff_lt_or_eq.mp last with earlier | rfl
      · rw [still k after earlier taken, level, same]
      · exact level.symm
    · rw [if_neg same] at stamp
      refine ⟨n, n.lt_succ_self, sampled, stamp, fun k after last _ => ?_⟩
      obtain rfl : k = n := Nat.le_antisymm (Nat.le_of_lt_succ last) after
      exact level.symm

/-- What poll `n` makes of a button. -/
theorem poll_cases (run : PollRun) (e : Button) (n : Nat) :
    (run.samples e n = false ∧ (run.state (n + 1)).btns e = (run.state n).btns e ∧
        run.out n ≠ some .select) ∨
      (run.samples e n = true ∧ ∃ b : BtnState,
        b = (Buttons.debounce (run.state n).combo e ((run.state n).btns e) (run.high e n)
          (run.clock n)).1 ∧
        Buttons.Dispatched b ((run.state (n + 1)).btns e) ∧
        (run.out n = some .select → e = .select →
          b.pendingShort = true ∨ b.stable = false)) := by
  cases sampled : run.samples e n with
  | false => exact .inl ⟨rfl, Buttons.poll_of_skipped sampled⟩
  | true => exact .inr ⟨rfl, _, rfl, Buttons.poll_of_sampled sampled⟩

theorem stamped (e : Button) (n : Nat) : run.Stamped e n ((run.state n).btns e) := by
  induction n with
  | zero =>
    exact ⟨fun _ => ⟨rfl, rfl⟩, fun some_low =>
      absurd (fun k before => absurd before (Nat.not_lt_zero k)) some_low⟩
  | succ n ih =>
    rcases run.poll_cases e n with ⟨skipped, same, -⟩ | ⟨sampled, b, rfl, dispatched, -⟩
    · rw [same]
      exact ih.skip skipped
    · obtain ⟨pending, hold, same, -⟩ := dispatched
      rw [same]
      exact ih.take sampled (Buttons.debounce_prevRaw _ e _ _ _)
        (Buttons.debounce_fields _ e _ _ _).1

/-- In the first 20 ms no event leaves the first pass, so each poll samples every button. -/
theorem samples_early (early : run.time n < run.time 0 + 20) : run.samples e n = true := by
  have quiet (o : Button) : (Buttons.debounce (run.state n).combo o ((run.state n).btns o)
      (run.pins n o.gpio) (run.clock n)).2 = none := by
    cases event : (Buttons.debounce (run.state n).combo o ((run.state n).btns o)
        (run.pins n o.gpio) (run.clock n)).2 with
    | none => rfl
    | some _ =>
      obtain ⟨low, late⟩ := Buttons.debounce_event event
      have h := run.stamped o n
      rw [(Buttons.debounce_fields _ o _ _ _).1, low] at late
      split at late
      · rename_i level
        have some_low : ¬∀ k < n, run.samples o k = true → run.high o k = true := fun all =>
          absurd (level.trans (h.assumed all).1) Bool.noConfusion
        obtain ⟨i, le, -, stamp, -⟩ := h.changed some_low
        have passed := run.elapsed_le le.le
        have first := run.monotone (Nat.zero_le i)
        rw [stamp] at late
        omega
      · rw [BitVec.sub_self] at late
        exact absurd late (by decide)
  rw [samples, Buttons.samples, Buttons.pass1_quiet (by cases e <;> decide) fun o _ => quiet o]
  rfl

/-! ## Arming -/

theorem StableRelease.mono {m : Nat} (h : run.StableRelease e n) (le : n ≤ m) :
    run.StableRelease e m := by
  obtain ⟨i, j, order, before, rest⟩ := h
  exact ⟨i, j, order, before.trans_le le, rest⟩

/-- A poll that arms ends a stable release, if the start counts. -/
theorem release_of_arm (start : run.StartCounts e) (h : run.Stamped e (n + 1) b)
    (sampled : run.samples e n = true) (level : b.prevRaw = run.high e n)
    (high : run.high e n = true) (late : 20 ≤ (run.clock n - b.lastChangeMs).toNat) :
    run.StableRelease e (n + 1) := by
  by_cases all : ∀ k < n + 1, run.samples e k = true → run.high e k = true
  · -- HIGH since the first poll: the time stamp is the assumed one.
    rw [(h.assumed all).2, run.clock_sub_zero n] at late
    have order := run.monotone n.zero_le
    rcases Nat.lt_or_ge (run.time n) (run.time 0 + 20) with early | long
    · have below := start n early fun k le => all k (Nat.lt_succ_of_le le)
        (samples_early (Nat.lt_of_le_of_lt (run.monotone le) early))
      omega
    · exact ⟨0, n, n.zero_le, n.lt_succ_self, samples_early (by omega), sampled,
        fun k _ le => all k (Nat.lt_succ_of_le le), long⟩
  · obtain ⟨i, le, first, stamp, still⟩ := h.changed all
    have le : i ≤ n := Nat.le_of_lt_succ le
    have passed := run.elapsed_le le
    have order := run.monotone le
    rw [stamp] at late
    refine ⟨i, n, le, n.lt_succ_self, first, sampled, fun k after before taken => ?_, by omega⟩
    rw [still k after (Nat.lt_succ_of_le before) taken, level, high]

/-- A button that was armed after the start has been released before. -/
theorem release_of_armed (start : run.StartCounts e)
    (armed : ((run.state n).btns e).armed = true) (waits : e = .select) :
    run.StableRelease e n := by
  induction n with
  | zero =>
    subst waits
    cases armed
  | succ n ih =>
    have earlier (was : ((run.state n).btns e).armed = true) : run.StableRelease e (n + 1) :=
      (ih was).mono n.le_succ
    rcases run.poll_cases e n with ⟨-, same, -⟩ | ⟨sampled, b, rfl, dispatched, -⟩
    · rw [same] at armed
      exact earlier armed
    · have h := run.stamped e (n + 1)
      obtain ⟨pending, hold, same, -⟩ := dispatched
      rw [same] at armed h
      have arms := (Buttons.debounce_fields (run.state n).combo e ((run.state n).btns e)
        (run.high e n) (run.clock n)).2
      rw [arms, Bool.or_eq_true, Bool.and_eq_true, decide_eq_true_eq] at armed
      rcases armed with was | ⟨high, late⟩
      · exact earlier was
      · exact release_of_arm start h sampled (Buttons.debounce_prevRaw _ e _ _ _) high late

/-- A press that waits or holds has been armed. -/
theorem armed_of_press (run : PollRun) (e : Button) (n : Nat)
    (press : ((run.state n).btns e).pendingShort = true ∨ ((run.state n).btns e).stable = false) :
    ((run.state n).btns e).armed = true := by
  induction n with
  | zero => exact absurd press (by simp [state, Buttons.setCombo, Buttons.init, BtnState.initial])
  | succ n ih =>
    rcases run.poll_cases e n with ⟨-, same, -⟩ | ⟨-, b, rfl, ⟨pending, hold, same, waits⟩, -⟩
    · rw [same] at press ⊢
      exact ih press
    · rw [same] at press ⊢
      have was := Buttons.debounce_press _ e _ _ ih (press.imp_left waits)
      show (Buttons.debounce _ e _ _ _).1.armed = true
      rw [(Buttons.debounce_fields _ e _ _ _).2, was, Bool.true_or]

theorem armed_of_out (run : PollRun) (n : Nat) (event : run.out n = some .select) :
    ((run.state n).btns .select).armed = true := by
  rcases run.poll_cases .select n with ⟨-, -, other⟩ | ⟨-, b, rfl, -, press⟩
  · exact absurd event other
  · exact Buttons.debounce_press _ .select _ _ (run.armed_of_press .select n) (press event rfl)

/-- A start that does not count arms SELECT too early. -/
theorem armed_early (early : run.time n < run.time 0 + 20)
    (high : ∀ k ≤ n, run.high e k = true) (late : 20 ≤ (run.clock n).toNat) :
    ((run.state (n + 1)).btns e).armed = true ∧ ¬run.StableRelease e (n + 1) := by
  constructor
  · have h := run.stamped e (n + 1)
    rcases run.poll_cases e n with ⟨skipped, -⟩ | ⟨-, b, rfl, ⟨pending, hold, same, -⟩, -⟩
    · exact absurd (skipped.symm.trans (samples_early early)) Bool.noConfusion
    · rw [same] at h ⊢
      have stamp := (h.assumed fun k le _ => high k (Nat.le_of_lt_succ le)).2
      have arms := (Buttons.debounce_fields (run.state n).combo e ((run.state n).btns e)
        (run.high e n) (run.clock n)).2
      have due : run.clock n - 0 ≥ debounceMs := by
        rw [run.clock_sub_zero n]
        exact late
      change (Buttons.debounce (run.state n).combo e ((run.state n).btns e) (run.high e n)
        (run.clock n)).1.lastChangeMs = 0 at stamp
      show (Buttons.debounce _ e _ _ _).1.armed = true
      rw [arms, stamp, high n le_rfl, decide_eq_true due]
      exact Bool.or_true _
  · rintro ⟨i, j, -, before, -, -, -, long⟩
    have first := run.monotone (Nat.zero_le i)
    have last := run.monotone (Nat.le_of_lt_succ before)
    omega

/-- SELECT is armed, and its event returned, only after a stable release: in every run
whose clock is below 20 for as long as SELECT has been HIGH since the first poll and 20 ms
have not passed, and in no other. -/
theorem select_released_iff (run : PollRun) :
    ((∀ n, run.out n = some .select → run.StableRelease .select n) ∧
        ∀ n, ((run.state n).btns .select).armed = true → run.StableRelease .select n) ↔
      run.StartCounts .select := by
  constructor
  · intro released n early high
    by_contra late
    obtain ⟨armed, never⟩ := armed_early early high (Nat.le_of_not_lt late)
    exact never (released.2 (n + 1) armed)
  · intro start
    exact ⟨fun n event => release_of_armed start (run.armed_of_out n event) rfl,
      fun n armed => release_of_armed start armed rfl⟩

/-- The first poll comes 1 s after the reset of the timer and finds SELECT HIGH; at all the
later ones, 110 ms apart, it is LOW. -/
def lateStart : PollRun where
  before := Buttons.zero
  a := some .up
  b := some .down
  holdMs := 500
  time n := 1000 + 110 * n
  pins n gpio := decide (gpio = Button.select.gpio → n = 0)
  monotone _ _ le := Nat.add_le_add_left (Nat.mul_le_mul_left 110 le) 1000

theorem lateStart_select : ¬∀ (run : PollRun) (n : Nat), run.out n = some .select →
    run.StableRelease .select n := by
  intro released
  obtain ⟨i, j, le, -, -, taken, high, long⟩ := released lateStart 4 (by decide)
  have last : j = 0 := of_decide_eq_true (high j le le_rfl taken) rfl
  subst last
  obtain rfl : i = 0 := Nat.eq_zero_of_le_zero le
  exact absurd long (by decide)

end PollRun

end MsxPulse.Firmware
