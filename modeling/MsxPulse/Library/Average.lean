import Mathlib.Algebra.Order.Ring.Nat
import Mathlib.Logic.Function.Iterate

/-!
# Running averages with a truncating division

The average takes the `k`-th part of each new reading and drops the remainder. Under a
constant reading it moves towards it, from above all the way, from below only until less
than `k` is missing.
-/

namespace MsxPulse.Library

/-- The average `a` after the reading `r`. -/
def average (k a r : Nat) : Nat := ((k - 1) * a + r) / k

/-- Where the average ends under the constant reading `r`: its start, cut to the values from
`r - (k - 1)` to `r`. -/
def averageLimit (k a r : Nat) : Nat := max (min a r) (r - (k - 1))

variable {k a r : Nat}

theorem average_of_le (positive : 0 < k) (le : a ≤ r) : average k a r = a + (r - a) / k := by
  obtain ⟨g, rfl⟩ := Nat.exists_eq_add_of_le le
  have whole : (k - 1) * a + (a + g) = k * a + g := by
    rw [← Nat.add_assoc, ← Nat.succ_mul, Nat.succ_eq_add_one, Nat.sub_add_cancel positive]
  rw [average, whole, Nat.mul_add_div positive, Nat.add_sub_cancel_left]

theorem average_of_ge (positive : 0 < k) (ge : r ≤ a) :
    average k a r = r + (k - 1) * (a - r) / k := by
  obtain ⟨g, rfl⟩ := Nat.exists_eq_add_of_le ge
  have whole : (k - 1) * (r + g) + r = k * r + (k - 1) * g := by
    have part : (k - 1) * r + r = k * r := by
      rw [← Nat.succ_mul, Nat.succ_eq_add_one, Nat.sub_add_cancel positive]
    rw [Nat.mul_add, Nat.add_right_comm, part]
  rw [average, whole, Nat.mul_add_div positive, Nat.add_sub_cancel_left]

theorem average_le (bound : Nat) (positive : 0 < k) (ha : a ≤ bound) (hr : r ≤ bound) :
    average k a r ≤ bound := by
  have whole : (k - 1) * bound + bound = k * bound := by
    rw [← Nat.succ_mul, Nat.succ_eq_add_one, Nat.sub_add_cancel positive]
  refine Nat.div_le_of_le_mul ?_
  rw [← whole]
  exact Nat.add_le_add (Nat.mul_le_mul_left _ ha) hr

theorem averageLimit_of_ge (ge : r ≤ a) : averageLimit k a r = r := by
  unfold averageLimit
  omega

/-- From above the average falls, and stays above. -/
theorem average_falls (positive : 0 < k) (gt : r < a) : r ≤ average k a r ∧ average k a r < a := by
  rw [average_of_ge positive gt.le]
  have part : (k - 1) * (a - r) / k < a - r := by
    refine Nat.div_lt_of_lt_mul ?_
    exact Nat.mul_lt_mul_of_pos_right (Nat.sub_lt positive Nat.one_pos) (Nat.sub_pos_of_lt gt)
  generalize (k - 1) * (a - r) / k = part at part
  omega

/-- From below it rises while `k` or more is missing, and leaves `k - 1` or more. -/
theorem average_rises (positive : 0 < k) (far : a + k ≤ r) :
    a < average k a r ∧ average k a r ≤ r - (k - 1) := by
  rw [average_of_le positive (Nat.le_of_add_right_le far)]
  have some_part : 0 < (r - a) / k := Nat.div_pos (by omega) positive
  -- The first `k` of what is missing gives one, and the rest no more than itself.
  have split : (r - a) / k = (r - a - k) / k + 1 := by
    rw [Nat.div_eq, if_pos ⟨positive, by omega⟩]
  have rest := Nat.div_le_self (r - a - k) k
  omega

/-- With less than `k` missing it stays. -/
theorem average_stays (le : a ≤ r) (near : r < a + k) : average k a r = a := by
  rw [average_of_le (by omega) le, Nat.div_eq_of_lt (by omega), Nat.add_zero]

theorem average_of_limit (positive : 0 < k) (there : averageLimit k a r = a) :
    average k a r = a := by
  unfold averageLimit at there
  exact average_stays (by omega) (by omega)

/-- A step keeps the limit and gets closer to it. -/
theorem averageLimit_step (positive : 0 < k) (away : averageLimit k a r ≠ a) :
    averageLimit k (average k a r) r = averageLimit k a r ∧
      max (average k a r) r - min (average k a r) r < max a r - min a r := by
  rcases Nat.lt_or_ge r a with above | below
  · have falls := average_falls positive above
    rw [averageLimit_of_ge falls.1, averageLimit_of_ge above.le]
    omega
  · have far : a + k ≤ r := by
      unfold averageLimit at away
      omega
    have rises := average_rises positive far
    unfold averageLimit
    omega

/-- Under a constant reading the average reaches its limit and stays there. -/
theorem average_reaches (positive : 0 < k) (a r : Nat) :
    ∃ n, ∀ m, n ≤ m → (fun a => average k a r)^[m] a = averageLimit k a r := by
  induction gap : max a r - min a r using Nat.strong_induction_on generalizing a with
  | h gap ih =>
    by_cases there : averageLimit k a r = a
    · have fixed : (fun a => average k a r) a = a := average_of_limit positive there
      refine ⟨0, fun m _ => ?_⟩
      rw [there]
      exact Function.iterate_fixed fixed m
    · obtain ⟨same, closer⟩ := averageLimit_step positive there
      obtain ⟨n, rest⟩ := ih _ (gap ▸ closer) (average k a r) rfl
      refine ⟨n + 1, fun m late => ?_⟩
      obtain ⟨m, rfl⟩ := Nat.exists_eq_add_of_le' (Nat.le_of_add_left_le late)
      rw [Function.iterate_succ_apply, rest m (Nat.le_of_succ_le_succ late), same]

end MsxPulse.Library
