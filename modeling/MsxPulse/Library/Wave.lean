import Mathlib.Data.Nat.Init

/-!
# The phases of a digital line

A line is its level at every clock. What a sampler sees of a bus cycle is told
from the falls and the rises of one line. An observer may begin to watch a line in
the middle of a phase, so nothing is assumed of the phase that holds at clock zero.
-/

namespace MsxPulse.Library.Wave

/-- The level of a line at every clock. -/
abbrev Line := Nat → Bool

/-- No clock is both high and low. -/
theorem clash {level : Bool} {P : Prop} (high : level = true) (low : level = false) : P :=
  absurd (high.symm.trans low) (by decide)

variable (line : Line)

/-- The first clock of a low phase that is seen. -/
def Falls (n : Nat) : Prop := line n = false ∧ (n = 0 ∨ line (n - 1) = true)

/-- The first high clock after a low phase. -/
def Rises (n : Nat) : Prop := 0 < n ∧ line (n - 1) = false ∧ line n = true

instance (n : Nat) : Decidable (Falls line n) := inferInstanceAs (Decidable (_ ∧ _))
instance (n : Nat) : Decidable (Rises line n) := inferInstanceAs (Decidable (_ ∧ _ ∧ _))

/-- High phases seen from their beginning last at least this many clocks. -/
def HighFor (clocks : Nat) : Prop := ∀ r, Rises line r → ∀ j < clocks, line (r + j) = true

/-- The same line, watched from a later clock on. -/
def from_ (start : Nat) : Line := fun n => line (start + n)

variable {line}

theorem HighFor.from_ {clocks : Nat} (steady : HighFor line clocks) (start : Nat) :
    HighFor (from_ line start) clocks := by
  rintro r ⟨begun, low, high⟩ j inside
  rw [Wave.from_, ← Nat.add_sub_assoc begun] at low
  have still := steady (start + r) ⟨Nat.add_pos_right start begun, low, high⟩ j inside
  rwa [Wave.from_, ← Nat.add_assoc]

/-- Between a low clock and a later high one the line rises. -/
theorem exists_rise {f j : Nat} (le : f ≤ j) (low : line f = false) (high : line j = true) :
    ∃ r, f < r ∧ r ≤ j ∧ Rises line r := by
  induction j, le using Nat.le_induction with
  | base => exact clash high low
  | succ j le ih =>
    cases before : line j with
    | true =>
      obtain ⟨r, after, until_, rises⟩ := ih before
      exact ⟨r, after, Nat.le_succ_of_le until_, rises⟩
    | false => exact ⟨j + 1, Nat.lt_succ_of_le le, Nat.le_refl _, Nat.succ_pos j, before, high⟩

/-- Low from a fall on, up to `n`. -/
def LowFrom (line : Line) (f n : Nat) : Prop :=
  Falls line f ∧ ∀ j, f ≤ j → j < n → line j = false

/-- A low phase has one first clock. -/
theorem LowFrom.first {f n : Nat} (low : LowFrom line f n) {g : Nat} (falls : Falls line g)
    (from_ : f ≤ g) (before : g < n) : g = f := by
  rcases Nat.eq_or_lt_of_le from_ with same | later
  · exact same.symm
  · have still := low.2 (g - 1) (Nat.le_sub_one_of_lt later) (by omega)
    rcases falls.2 with zero | high
    · omega
    · exact clash high still

/-- With high phases of more than `clocks` clocks, the line does not fall twice
within `clocks + 1`. -/
theorem Falls.apart {clocks : Nat} (steady : HighFor line (clocks + 1)) {f g : Nat}
    (first : Falls line f) (second : Falls line g) (later : f < g) : f + clocks + 1 < g := by
  rcases second.2 with zero | high
  · omega
  · obtain ⟨r, after, until_, rises⟩ := exists_rise (Nat.le_sub_one_of_lt later) first.1 high
    by_cases near : g ≤ f + clocks + 1
    · have still := steady r rises (g - r) (by omega)
      rw [Nat.add_sub_cancel' (by omega)] at still
      exact clash still second.1
    · exact Nat.lt_of_not_le near

end MsxPulse.Library.Wave
