import Mathlib.Data.Nat.Count
import Mathlib.Data.List.Perm.Basic

/-!
# Bits accumulated over a list

Accumulators that collect evidence with `|=` are read back bit by bit: a bit of
the accumulated word is set exactly when some element of the list contributed
it. The shift-and-add population count is related to `Nat.count`.
-/

namespace MsxPulse.Library

universe u

variable {α : Type u} {w : Nat}

/-- `for (x in l) acc |= f(x);` -/
def orAll (f : α → BitVec w) (l : List α) (acc : BitVec w) : BitVec w :=
  l.foldl (fun acc x => acc ||| f x) acc

@[simp] theorem orAll_nil (f : α → BitVec w) (acc : BitVec w) : orAll f [] acc = acc := rfl

@[simp] theorem orAll_cons (f : α → BitVec w) (x : α) (l : List α) (acc : BitVec w) :
    orAll f (x :: l) acc = orAll f l (acc ||| f x) := rfl

theorem getLsbD_orAll (f : α → BitVec w) (l : List α) (acc : BitVec w) (k : Nat) :
    (orAll f l acc).getLsbD k = (acc.getLsbD k || l.any fun x => (f x).getLsbD k) := by
  induction l generalizing acc with
  | nil => simp
  | cons x l ih => simp [ih, Bool.or_assoc]

theorem getLsbD_orAll_zero (f : α → BitVec w) (l : List α) (k : Nat) :
    (orAll f l 0).getLsbD k = true ↔ ∃ x ∈ l, (f x).getLsbD k = true := by
  simp [getLsbD_orAll]

theorem countP_or_of_disjoint (p q : α → Bool) (l : List α)
    (disjoint : ∀ x ∈ l, ¬ (p x = true ∧ q x = true)) :
    l.countP (fun x => p x || q x) = l.countP p + l.countP q := by
  induction l with
  | nil => rfl
  | cons x l ih =>
    have here := disjoint x (by simp)
    have rest := ih fun y hy => disjoint y (List.mem_cons_of_mem _ hy)
    simp only [List.countP_cons, rest]
    cases hp : p x <;> cases hq : q x <;> simp_all
    all_goals omega

/-- `while (v) { c += v & 1; v >>= 1; }` -/
def popcountLoop (c : BitVec 32) (v : BitVec w) : BitVec 32 :=
  if v = 0 then c else popcountLoop (c + (v &&& 1).setWidth 32) (v >>> 1)
termination_by v.toNat
decreasing_by
  rename_i nonzero
  have positive : v.toNat ≠ 0 := fun h => nonzero (BitVec.eq_of_toNat_eq (by simpa using h))
  simp only [BitVec.toNat_ushiftRight, Nat.shiftRight_one]
  omega

theorem and_one_setWidth (v : BitVec w) :
    (v &&& 1).setWidth 32 = if v.getLsbD 0 then 1#32 else 0#32 := by
  have low : v.getLsbD 0 = decide (v.toNat % 2 = 1) := by
    simp [BitVec.getLsbD, Nat.testBit_zero]
  apply BitVec.eq_of_toNat_eq
  cases w with
  | zero => simp [BitVec.eq_nil v]
  | succ w =>
    have value : ((v &&& 1).setWidth 32).toNat = v.toNat % 2 := by
      simp [Nat.and_one_is_mod]
    rw [value, low]
    by_cases odd : v.toNat % 2 = 1
    · simp [odd]
    · have even : v.toNat % 2 = 0 := by omega
      simp [even]

theorem popcountLoop_eq_count (n : Nat) (c : BitVec 32) (v : BitVec w) (small : v.toNat < 2 ^ n) :
    popcountLoop c v = c + BitVec.ofNat 32 (Nat.count (fun k => v.getLsbD k = true) n) := by
  induction n generalizing c v with
  | zero =>
    have zero : v = 0 := BitVec.eq_of_toNat_eq (by simpa using small)
    rw [popcountLoop]
    simp [zero]
  | succ n ih =>
    rw [popcountLoop]
    split
    next zero => subst zero; simp [Nat.count_false]
    next nonzero =>
      have half : (v >>> 1).toNat < 2 ^ n := by
        simp only [BitVec.toNat_ushiftRight, Nat.shiftRight_one]
        omega
      rw [ih _ _ half, Nat.count_succ', and_one_setWidth]
      simp only [BitVec.getLsbD_ushiftRight, Nat.add_comm 1, BitVec.ofNat_add]
      split <;> simp [BitVec.add_assoc, BitVec.add_comm]

end MsxPulse.Library
