import MsxPulse.Firmware.BootDiag.Round

/-!
# How long a round takes

Ticks may come late by `gap` milliseconds. A pass then takes its window of 8000 ms, the
60 ms of the settling and the lateness of the three ticks that move it on.
-/

namespace MsxPulse.Firmware.BootDiag

/-- What a pass takes at most. -/
def passMs (gap : Nat) : Nat := 8060 + 3 * gap

/-- The deadline of the phase lies `interval` after a time that has passed, and it has not
been reached. -/
def Waits (d : BootDiag) (interval began now : Nat) : Prop :=
  d.deadlineMs = BitVec.ofNat 32 (began + interval) ∧ began ≤ now ∧ now < began + interval

/-- What the statics say about the passage of time. -/
structure Timed (d : BootDiag) (now : Nat) : Prop where
  passes : d.phase ≠ .done → d.pass.toNat ≤ 2
  window : d.phase = .capturing → ∃ began, d.Waits 8000 began now
  settling : d.phase = .settle → ∃ stopped, d.Waits 60 stopped now

/-- The round that is asked for or under way ends until `end_`. -/
inductive EndsBy (gap end_ : Nat) (d : BootDiag) (now : Nat) : Prop where
  | asked (ready : d.phase = .idle ∨ d.phase = .done) (requested : d.request = true)
      (le : now + gap + 3 * passMs gap ≤ end_)
  | begins (begins : d.phase = .passBegin) (few : d.pass.toNat ≤ 2)
      (le : now + (3 - d.pass.toNat) * passMs gap ≤ end_)
  | captures (began : Nat) (capturing : d.phase = .capturing) (few : d.pass.toNat ≤ 2)
      (waits : d.Waits 8000 began now)
      (le : began + 8060 + 2 * gap + (2 - d.pass.toNat) * passMs gap ≤ end_)
  | settles (stopped : Nat) (settled : d.phase = .settle) (few : d.pass.toNat ≤ 2)
      (waits : d.Waits 60 stopped now)
      (le : stopped + 60 + gap + (2 - d.pass.toNat) * passMs gap ≤ end_)

variable {d : BootDiag} {snap : BusProbeSnapshot} {bs : BootDetect} {gap end_ now t : Nat}

/-- The wrapped comparison tells whether the deadline has been reached. -/
theorem Waits.reached_iff {interval began : Nat} (waits : d.Waits interval began now)
    (forward : now ≤ t) (soon : t ≤ now + gap) (slow : gap + interval < 2 ^ 31) :
    reached (BitVec.ofNat 32 t) d.deadlineMs = true ↔ began + interval ≤ t := by
  obtain ⟨deadline, past, early⟩ := waits
  rw [deadline, reached_ofNat (by omega) (by omega), decide_eq_true_iff]

theorem Waits.stay {interval began : Nat} (waits : d.Waits interval began now) (forward : now ≤ t)
    (soon : t ≤ now + gap) (slow : gap + interval < 2 ^ 31)
    (early : reached (BitVec.ofNat 32 t) d.deadlineMs = false) : d.Waits interval began t := by
  have before : ¬ began + interval ≤ t := by
    rw [← waits.reached_iff forward soon slow, early]
    exact Bool.false_ne_true
  exact ⟨waits.1, Nat.le_trans waits.2.1 forward, Nat.lt_of_not_le before⟩

theorem waits_window (t : Nat) :
    { d with captureActive := true, deadlineMs := BitVec.ofNat 32 t + windowMs, phase := .capturing }.Waits
      8000 t t :=
  ⟨ofNat_add_windowMs t, Nat.le_refl t, Nat.lt_add_of_pos_right (by decide)⟩

theorem waits_settling (t : Nat) :
    { d with captureActive := false, deadlineMs := BitVec.ofNat 32 t + 60#32, phase := .settle }.Waits
      60 t t :=
  ⟨(BitVec.ofNat_add t 60).symm, Nat.le_refl t, Nat.lt_add_of_pos_right (by decide)⟩

theorem Timed.tick (timed : d.Timed now) (forward : now ≤ t) (soon : t ≤ now + gap)
    (slow : gap + 8000 < 2 ^ 31) : (d.tick snap bs (BitVec.ofNat 32 t)).1.Timed t := by
  have outcome := tick_outcome d snap bs (BitVec.ofNat 32 t)
  generalize d.tick snap bs (BitVec.ofNat 32 t) = next at outcome
  cases outcome with
  | wait stays early armed =>
    refine ⟨timed.passes, fun capturing => ?_, fun settled => ?_⟩
    · obtain ⟨began, waits⟩ := timed.window capturing
      exact ⟨began, waits.stay forward soon slow (early (.inl capturing))⟩
    · obtain ⟨stopped, waits⟩ := timed.settling settled
      exact ⟨stopped, waits.stay forward soon (by omega) (early (.inr settled))⟩
  | beginRound ready requested => exact ⟨fun _ => Nat.zero_le 2, by simp, by simp⟩
  | beginPass armed =>
    have few := timed.passes (by simp [armed])
    exact ⟨fun _ => few, fun _ => ⟨t, waits_window t⟩, by simp⟩
  | endWindow capturing late =>
    have few := timed.passes (by simp [capturing])
    exact ⟨fun _ => few, by simp, fun _ => ⟨t, waits_settling t⟩⟩
  | nextPass settled late incomplete remaining =>
    have below : (d.pass + 1#8).toNat < 3 := BitVec.lt_def.mp remaining
    exact ⟨fun _ => Nat.le_of_lt_succ below, by simp, by simp⟩
  | finish settled late stops => exact ⟨by simp, by simp, by simp⟩

/-- From any state, a round takes at most three passes and the tick that begins it. -/
theorem Timed.endsBy (timed : d.Timed now) (pending : d.phase = .idle ∨ d.phase = .done →
    d.request = true) (le : now + gap + 3 * passMs gap ≤ end_) : EndsBy gap end_ d now := by
  have fits (k : Nat) : (3 - k) * passMs gap ≤ 3 * passMs gap :=
    Nat.mul_le_mul_right _ (Nat.sub_le 3 k)
  have fits' (k : Nat) : (2 - k) * passMs gap + passMs gap ≤ 3 * passMs gap := by
    have less := Nat.mul_le_mul_right (passMs gap) (Nat.sub_le 2 k)
    omega
  cases phase : d.phase with
  | idle => exact .asked (.inl phase) (pending (.inl phase)) le
  | done => exact .asked (.inr phase) (pending (.inr phase)) le
  | passBegin =>
    have less := fits d.pass.toNat
    exact .begins phase (timed.passes (by simp [phase])) (by omega)
  | capturing =>
    obtain ⟨began, waits⟩ := timed.window phase
    have less := fits' d.pass.toNat
    have past := waits.2.1
    exact .captures began phase (timed.passes (by simp [phase])) waits
      (by unfold passMs at *; omega)
  | settle =>
    obtain ⟨stopped, waits⟩ := timed.settling phase
    have less := fits' d.pass.toNat
    have past := waits.2.1
    exact .settles stopped phase (timed.passes (by simp [phase])) waits
      (by unfold passMs at *; omega)

theorem EndsBy.now_le (ends : EndsBy gap end_ d now) : now ≤ end_ := by
  cases ends with
  | asked ready requested le => omega
  | begins begins few le => exact Nat.le_trans (Nat.le_add_right _ _) le
  | captures began capturing few waits le =>
    have early := waits.2.2
    generalize (2 - d.pass.toNat) * passMs gap = rest at le
    omega
  | settles stopped settled few waits le =>
    have early := waits.2.2
    generalize (2 - d.pass.toNat) * passMs gap = rest at le
    omega

/-- A tick brings the round to its end or keeps to its time. -/
theorem EndsBy.tick (ends : EndsBy gap end_ d now) (forward : now ≤ t) (soon : t ≤ now + gap)
    (slow : gap + 8000 < 2 ^ 31) :
    (d.tick snap bs (BitVec.ofNat 32 t)).1.phase = .done ∧ t ≤ end_ ∨
      EndsBy gap end_ (d.tick snap bs (BitVec.ofNat 32 t)).1 t := by
  cases ends with
  | asked ready requested le =>
    have taken : d.tick snap bs (BitVec.ofNat 32 t) = d.tickIdle := by
      rcases ready with h | h <;> simp only [BootDiag.tick, h]
    rw [taken, tickIdle, if_pos requested]
    exact .inr (.begins rfl (Nat.zero_le 2) (by show t + 3 * passMs gap ≤ end_; omega))
  | begins begins few le =>
    have split : (3 - d.pass.toNat) * passMs gap =
        (2 - d.pass.toNat) * passMs gap + passMs gap := by
      rw [show 3 - d.pass.toNat = 2 - d.pass.toNat + 1 by omega, Nat.succ_mul]
    simp only [BootDiag.tick, begins]
    refine .inr (.captures t rfl few (waits_window t) ?_)
    show t + 8060 + 2 * gap + (2 - d.pass.toNat) * passMs gap ≤ end_
    unfold passMs at *
    omega
  | captures began capturing few waits le =>
    have before := waits.2.2
    simp only [BootDiag.tick, capturing, tickCapturing]
    split
    · refine .inr (.settles t rfl few (waits_settling t) ?_)
      show t + 60 + gap + (2 - d.pass.toNat) * passMs gap ≤ end_
      generalize (2 - d.pass.toNat) * passMs gap = rest at le ⊢
      omega
    · next early =>
      have stays := waits.stay forward soon slow (Bool.eq_false_iff.mpr early)
      exact .inr (.captures began capturing few stays le)
  | settles stopped settled few waits le =>
    have before := waits.2.2
    simp only [BootDiag.tick, settled, tickSettle]
    split
    · split
      · refine .inl ⟨rfl, ?_⟩
        generalize (2 - d.pass.toNat) * passMs gap = rest at le
        omega
      · next unfinished =>
        have below : (d.pass + 1#8).toNat < 3 := BitVec.lt_def.mp (BitVec.not_le.mp (not_or.mp unfinished).2)
        have counted : (d.pass + 1#8).toNat = d.pass.toNat + 1 := by
          rw [BitVec.toNat_add]
          exact Nat.mod_eq_of_lt (by simp; omega)
        refine .inr (.begins rfl (Nat.le_of_lt_succ below) ?_)
        show t + (3 - (d.pass + 1#8).toNat) * passMs gap ≤ end_
        rw [counted, show 3 - (d.pass.toNat + 1) = 2 - d.pass.toNat by omega]
        generalize (2 - d.pass.toNat) * passMs gap = rest at le ⊢
        omega
    · next early =>
      have stays := waits.stay forward soon (by omega) (Bool.eq_false_iff.mpr early)
      exact .inr (.settles stopped settled few stays le)

end MsxPulse.Firmware.BootDiag
