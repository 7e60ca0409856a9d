import Mathlib.Data.Fin.Basic
import MsxPulse.Library.Average
import MsxPulse.Firmware.Types

/-!
# The rail averages (adc_rails.c)

Each call samples the rail whose turn it is and moves its running average. The voltages
that are computed from the averages are floating point and stay out.
-/

namespace MsxPulse.Firmware

open Library

/-- The statics: an average for each rail, and the rail whose turn it is. -/
structure AdcRails where
  avg : Fin 3 → U32
  currentRail : Fin 3

namespace AdcRails

/-- `adc_rails_init` -/
def init : AdcRails := ⟨fun _ => 0, 0⟩

/-- `adc_rails_sample`, with the value of `adc_read`. -/
def sample (s : AdcRails) (raw : U16) : AdcRails where
  avg := Function.update s.avg s.currentRail ((s.avg s.currentRail * 63 + raw.setWidth 32) / 64)
  currentRail := s.currentRail + 1

/-- The state after the first `n` samples. -/
def after (s : AdcRails) (raw : Nat → U16) : Nat → AdcRails
  | 0 => s
  | n + 1 => (after s raw n).sample (raw n)

/-- No average is above what 12 bits can show. -/
def Bounded (s : AdcRails) : Prop := ∀ k, (s.avg k).toNat ≤ 4095

variable {s : AdcRails} {raw : Nat → U16}

theorem sample_self (s : AdcRails) (value : U16) :
    (s.sample value).avg s.currentRail =
      (s.avg s.currentRail * 63 + value.setWidth 32) / 64 := by
  simp [sample]

theorem sample_of_ne {k : Fin 3} (other : k ≠ s.currentRail) (value : U16) :
    (s.sample value).avg k = s.avg k := by
  simp [sample, other]

theorem sample_toNat (bounded : s.Bounded) {value : U16} (adc : value.toNat ≤ 4095) :
    ((s.sample value).avg s.currentRail).toNat =
      average 64 (s.avg s.currentRail).toNat value.toNat := by
  have low := bounded s.currentRail
  have product : (s.avg s.currentRail * 63 + value.setWidth 32).toNat =
      63 * (s.avg s.currentRail).toNat + value.toNat := by
    rw [BitVec.toNat_add, BitVec.toNat_mul, BitVec.toNat_setWidth]
    show ((s.avg s.currentRail).toNat * 63 % 2 ^ 32 + value.toNat % 2 ^ 32) % 2 ^ 32 = _
    omega
  rw [sample_self, BitVec.toNat_udiv, product]
  rfl

theorem sample_bounded (bounded : s.Bounded) {value : U16} (adc : value.toNat ≤ 4095) :
    (s.sample value).Bounded := by
  intro k
  rcases eq_or_ne k s.currentRail with rfl | other
  · rw [sample_toNat bounded adc]
    exact average_le 4095 (by decide) (bounded s.currentRail) adc
  · rw [sample_of_ne other]
    exact bounded k

theorem init_bounded : init.Bounded := fun _ => Nat.zero_le 4095

theorem after_bounded (bounded : s.Bounded) (adc : ∀ n, (raw n).toNat ≤ 4095) (n : Nat) :
    (s.after raw n).Bounded := by
  induction n with
  | zero => exact bounded
  | succ n ih => exact sample_bounded ih (adc n)

end AdcRails

/-! ## A rail with a constant reading -/

/-- Samples from any averages on; whenever it is the turn of rail `k`, it reads `r`. -/
structure RailRun (k : Fin 3) (r : U16) where
  start : AdcRails
  raw : Nat → U16
  bounded : start.Bounded
  adc : ∀ n, (raw n).toNat ≤ 4095
  constant : ∀ n, (start.after raw n).currentRail = k → raw n = r

namespace RailRun

variable {k : Fin 3} {r : U16} (run : RailRun k r)

/-- The rail's average after `n` samples. -/
def value (n : Nat) : Nat := ((run.start.after run.raw n).avg k).toNat

/-- How many of the first `n` samples were the rail's. -/
def turns : Nat → Nat
  | 0 => 0
  | n + 1 => turns n + if (run.start.after run.raw n).currentRail = k then 1 else 0

theorem value_eq (n : Nat) :
    run.value n = (fun a => average 64 a r.toNat)^[run.turns n] (run.value 0) := by
  induction n with
  | zero => rfl
  | succ n ih =>
    have bounded := AdcRails.after_bounded run.bounded run.adc n
    have step : run.value (n + 1) =
        (((run.start.after run.raw n).sample (run.raw n)).avg k).toNat := rfl
    rw [step, turns]
    split
    · have here : (run.start.after run.raw n).currentRail = k := ‹_›
      have sampled := AdcRails.sample_toNat bounded (run.adc n)
      rw [here, run.constant n here] at sampled
      rw [Function.iterate_succ_apply', ← ih, run.constant n here, sampled]
      rfl
    · rw [AdcRails.sample_of_ne (Ne.symm ‹_›), Nat.add_zero, ← ih]
      rfl

/-- One of three samples in a row is the rail's. -/
theorem turns_add_three (n : Nat) : run.turns (n + 3) = run.turns n + 1 := by
  have once (c k : Fin 3) : ((if c = k then 1 else 0) + if c + 1 = k then 1 else 0) +
      (if c + 1 + 1 = k then 1 else 0) = 1 := by
    decide +revert
  have here := once (run.start.after run.raw n).currentRail k
  have first : (run.start.after run.raw (n + 1)).currentRail =
      (run.start.after run.raw n).currentRail + 1 := rfl
  have second : (run.start.after run.raw (n + 2)).currentRail =
      (run.start.after run.raw n).currentRail + 1 + 1 := rfl
  show run.turns n + _ + _ + _ = _
  rw [first, second]
  omega

theorem turns_mono {n m : Nat} (le : n ≤ m) : run.turns n ≤ run.turns m := by
  induction m, le using Nat.le_induction with
  | base => exact le_rfl
  | succ m _ ih =>
    rw [turns]
    exact ih.trans (Nat.le_add_right _ _)

theorem turns_unbounded (n : Nat) : n ≤ run.turns (3 * n) := by
  induction n with
  | zero => exact Nat.zero_le _
  | succ n ih =>
    have three := run.turns_add_three (3 * n)
    show n + 1 ≤ run.turns (3 * n + 3)
    omega

/-- The rail's average ends at the start, cut to the values from `r - 63` to `r`. -/
theorem value_reaches : ∃ n, ∀ m, n ≤ m →
    run.value m = averageLimit 64 (run.value 0) r.toNat := by
  obtain ⟨n, there⟩ := average_reaches (k := 64) (by decide) (run.value 0) r.toNat
  refine ⟨3 * n, fun m late => ?_⟩
  rw [run.value_eq m]
  exact there _ ((run.turns_unbounded n).trans (run.turns_mono late))

/-- The two values are at most `d` counts apart. -/
def Within (d a b : Nat) : Prop := a ≤ b + d ∧ b ≤ a + d

/-- What holds of two averages in the end holds of where they end. -/
theorem eventually_iff (other : RailRun k r) (P : Nat → Nat → Prop) :
    (∃ n, ∀ m, n ≤ m → P (run.value m) (other.value m)) ↔
      P (averageLimit 64 (run.value 0) r.toNat) (averageLimit 64 (other.value 0) r.toNat) := by
  obtain ⟨n, there⟩ := run.value_reaches
  obtain ⟨n', there'⟩ := other.value_reaches
  constructor
  · rintro ⟨l, always⟩
    have last := always (max l (max n n')) (by omega)
    rwa [there _ (by omega), there' _ (by omega)] at last
  · intro h
    refine ⟨max n n', fun m late => ?_⟩
    rwa [there m (by omega), there' m (by omega)]

/-- The average of a rail that reads `r` gets within one count of `r`, and stays there, if and
only if it was at most one count below when the constant reading began; two averages of
such rails get within two counts of each other if and only if their values at that time
were, cut to the values from `r - 63` to `r`. All averages stay within 12 bits, and no
product overflows. -/
theorem settles_iff (run other : RailRun k r) :
    ((∃ n, ∀ m, n ≤ m → Within 1 (run.value m) r.toNat) ↔ r.toNat ≤ run.value 0 + 1) ∧
      ((∃ n, ∀ m, n ≤ m → Within 2 (run.value m) (other.value m)) ↔
        Within 2 (max (min (run.value 0) r.toNat) (r.toNat - 63))
          (max (min (other.value 0) r.toNat) (r.toNat - 63))) ∧
      ∀ m j, ((run.start.after run.raw m).avg j).toNat ≤ 4095 ∧
        ((run.start.after run.raw m).avg j).toNat * 63 + (run.raw m).toNat < 2 ^ 32 := by
  refine ⟨?_, run.eventually_iff other (Within 2), fun m j => ?_⟩
  · rw [run.eventually_iff run fun a _ => Within 1 a r.toNat]
    unfold averageLimit Within
    omega
  · have bounded := AdcRails.after_bounded run.bounded run.adc m j
    have adc := run.adc m
    exact ⟨bounded, by omega⟩

/-- Every rail reads 3102, what the +5 V rail gives at its nominal voltage, from the reset on. -/
def nominal : RailRun 0 3102 where
  start := AdcRails.init
  raw _ := 3102
  bounded := AdcRails.init_bounded
  adc _ := by decide
  constant _ _ := rfl

/-- It ends 63 counts below. -/
theorem nominal_low : ¬∀ (k : Fin 3) (r : U16) (run : RailRun k r),
    ∃ n, ∀ m, n ≤ m → Within 1 (run.value m) r.toNat := by
  intro forgets
  have near := (nominal.eventually_iff nominal fun a _ => Within 1 a 3102).mp
    (forgets 0 3102 nominal)
  exact absurd near.2 (by decide)

end RailRun

end MsxPulse.Firmware
