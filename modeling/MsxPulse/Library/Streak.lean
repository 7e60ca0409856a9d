import Mathlib.Algebra.Group.Nat.Defs

/-!
# Runs of consecutive successes

For a predicate on points of time, the run that reaches up to a point, by where it began.
-/

namespace MsxPulse.Library

variable (p : Nat → Bool)

/-- Where the run of `true` that reaches up to `n` began; `n` itself if there is none. -/
def streak : Nat → Nat
  | 0 => 0
  | n + 1 => if p n then streak n else n + 1

/-- The point before `n` is a `true`. -/
def wasTrue : Nat → Bool
  | 0 => false
  | n + 1 => p n

variable {p} {n m : Nat}

theorem streak_succ_of_true (h : p n = true) : streak p (n + 1) = streak p n := by
  rw [streak, if_pos h]

theorem streak_of_not (h : wasTrue p n = false) : streak p n = n := by
  cases n with
  | zero => rfl
  | succ n =>
    have here : p n = false := h
    rw [streak, if_neg (Bool.eq_false_iff.mp here)]

theorem streak_le (p : Nat → Bool) (n : Nat) : streak p n ≤ n := by
  induction n with
  | zero => exact Nat.le_refl 0
  | succ n ih =>
    rw [streak]
    split
    · exact Nat.le_succ_of_le ih
    · exact Nat.le_refl (n + 1)

/-- Between its beginning and `n` the run has `true` only. -/
theorem true_of_streak (after : streak p n ≤ m) (before : m < n) : p m = true := by
  induction n with
  | zero => exact absurd before (Nat.not_lt_zero m)
  | succ n ih =>
    cases here : p n with
    | false =>
      rw [streak_of_not (n := n + 1) here] at after
      exact absurd before (Nat.not_lt.mpr after)
    | true =>
      rw [streak_succ_of_true here] at after
      rcases Nat.lt_succ_iff_lt_or_eq.mp before with earlier | rfl
      · exact ih after earlier
      · exact here

/-- Before its beginning stands no `true`. -/
theorem wasTrue_streak (p : Nat → Bool) (n : Nat) : wasTrue p (streak p n) = false := by
  induction n with
  | zero => rfl
  | succ n ih =>
    cases here : p n with
    | false => rwa [streak_of_not (n := n + 1) here]
    | true => rwa [streak_succ_of_true here]

/-- Points that are all `true` up to `n` belong to the run. -/
theorem streak_le_of_true (le : m ≤ n) (h : ∀ k, m ≤ k → k < n → p k = true) : streak p n ≤ m := by
  induction n with
  | zero => exact Nat.zero_le m
  | succ n ih =>
    rcases Nat.lt_or_ge n m with last | before
    · exact Nat.le_trans (streak_le p (n + 1)) last
    · rw [streak_succ_of_true (h n before n.lt_succ_self)]
      exact ih before fun k after earlier => h k after (Nat.lt_succ_of_lt earlier)

/-- A run of `true` up to `n` with none before it begins where the streak does. -/
theorem streak_eq (le : m ≤ n) (h : ∀ k, m ≤ k → k < n → p k = true)
    (begins : wasTrue p m = false) : streak p n = m := by
  refine Nat.le_antisymm (streak_le_of_true le h) ?_
  rcases Nat.lt_or_ge (streak p n) m with earlier | reached
  · cases m with
    | zero => exact absurd earlier (Nat.not_lt_zero _)
    | succ k =>
      have here : p k = true := true_of_streak (Nat.le_of_lt_succ earlier) le
      exact absurd (here.symm.trans begins) Bool.noConfusion
  · exact reached

end MsxPulse.Library
