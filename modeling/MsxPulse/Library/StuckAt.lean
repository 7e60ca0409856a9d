import Mathlib.Data.BitVec

/-!
# Cells with stuck bits

A bit of a cell can be stuck at either value. A pattern and its complement between them
ask every bit for both of its values, so a memory that returns both patterns from every
cell has no stuck bit.
-/

namespace MsxPulse.Library

/-- The bits that read 0, and those that read 1, whatever is written. -/
structure StuckAt (w : Nat) where
  low : BitVec w
  high : BitVec w
  disjoint : low &&& high = 0#w

variable {w n : Nat}

namespace StuckAt

/-- What a cell returns that holds `v`. -/
def read (f : StuckAt w) (v : BitVec w) : BitVec w := v &&& ~~~f.low ||| f.high

def Healthy (f : StuckAt w) : Prop := f.low = 0#w ∧ f.high = 0#w

instance (f : StuckAt w) : Decidable f.Healthy := inferInstanceAs (Decidable (_ ∧ _))

def healthy : StuckAt w := ⟨0#w, 0#w, BitVec.and_self⟩

theorem Healthy.read {f : StuckAt w} (h : f.Healthy) (v : BitVec w) : f.read v = v := by
  rw [StuckAt.read, h.1, h.2]
  simp

/-- A bit that reads as it was written is not stuck at the other value. -/
theorem stuck_of_read {f : StuckAt w} {v : BitVec w} (returned : f.read v = v) {i : Nat}
    (inside : i < w) : (v.getLsbD i = true → f.low.getLsbD i = true → f.high.getLsbD i = true) ∧
      (v.getLsbD i = false → f.high.getLsbD i = false) := by
  have bit := congrArg (·.getLsbD i) returned
  simp only [StuckAt.read, BitVec.getLsbD_or, BitVec.getLsbD_and, BitVec.getLsbD_not, inside,
    decide_true, Bool.true_and] at bit
  constructor
  · intro one low
    rw [one, low] at bit
    simpa using bit
  · intro zero
    rw [zero] at bit
    simpa using bit

/-- A pattern and its complement find every stuck bit. -/
theorem healthy_iff (f : StuckAt w) (pattern : BitVec w) :
    f.Healthy ↔ f.read pattern = pattern ∧ f.read (~~~pattern) = ~~~pattern := by
  constructor
  · intro healthy
    exact ⟨healthy.read _, healthy.read _⟩
  · rintro ⟨returned, returned'⟩
    have bits : ∀ i < w, f.low.getLsbD i = false ∧ f.high.getLsbD i = false := by
      intro i inside
      have first := stuck_of_read returned inside
      have second := stuck_of_read returned' inside
      simp only [BitVec.getLsbD_not, inside, decide_true, Bool.true_and] at second
      cases one : pattern.getLsbD i <;> cases low : f.low.getLsbD i <;>
        cases high : f.high.getLsbD i <;> simp_all
    constructor
    · exact BitVec.eq_of_getLsbD_eq fun i inside => by simpa using (bits i inside).1
    · exact BitVec.eq_of_getLsbD_eq fun i inside => by simpa using (bits i inside).2

end StuckAt

section March

variable (fault : BitVec n → StuckAt w) (cells : BitVec n → Prop)

/-- Every cell returns the pattern. -/
def Returns (pattern : BitVec w) : Prop := ∀ c, cells c → (fault c).read pattern = pattern

/-- What a test with some patterns, each over all the cells upwards, stops at: the first
pattern that some cell does not return, the least such cell, and what it returns. -/
structure Finding (patterns : List (BitVec w)) (pattern : BitVec w) (cell : BitVec n)
    (actual : BitVec w) : Prop where
  first : ∃ before after, patterns = before ++ pattern :: after ∧
    ∀ p ∈ before, Returns fault cells p
  inside : cells cell
  differs : (fault cell).read pattern ≠ pattern
  least : ∀ c, cells c → c < cell → (fault c).read pattern = pattern
  actual : actual = (fault cell).read pattern

variable {fault cells}

theorem all_healthy_iff (pattern : BitVec w) : (∀ c, cells c → (fault c).Healthy) ↔
    Returns fault cells pattern ∧ Returns fault cells (~~~pattern) := by
  constructor
  · intro healthy
    exact ⟨fun c inside => (healthy c inside).read _, fun c inside => (healthy c inside).read _⟩
  · rintro ⟨returned, returned'⟩ c inside
    exact ((fault c).healthy_iff pattern).mpr ⟨returned c inside, returned' c inside⟩

end March

end MsxPulse.Library
