import Mathlib.Logic.Basic

/-!
# Fixed-width types of the firmware

The C code's `uint8_t`, `uint16_t`, `uint32_t` and `uint64_t`. Arithmetic wraps
and comparison is unsigned, as it is on `BitVec`.
-/

namespace MsxPulse.Firmware

abbrev U8 := BitVec 8
abbrev U16 := BitVec 16
abbrev U32 := BitVec 32
abbrev U64 := BitVec 64

/-- `v & (1u << k)` used as a condition. -/
def bitSet {w : Nat} (v : BitVec w) (k : Nat) : Bool := v &&& (1#w <<< k) != 0

theorem getLsbD_and_shifted_one {w : Nat} (v : BitVec w) (k i : Nat) :
    (v &&& (1#w <<< k)).getLsbD i = (v.getLsbD k && decide (i = k)) := by
  by_cases same : i = k
  · subst same
    cases bit : v.getLsbD i with
    | false => simp [bit, -BitVec.getLsbD_eq_getElem]
    | true =>
      have inside : i < w := BitVec.lt_of_getLsbD bit
      simp [bit, inside, Nat.zero_lt_of_lt inside, -BitVec.getLsbD_eq_getElem]
  · have clear : i < k ∨ ¬ i - k = 0 := by omega
    rcases clear with h | h <;> simp [h, same, -BitVec.getLsbD_eq_getElem]

@[simp] theorem bitSet_eq_getLsbD {w : Nat} (v : BitVec w) (k : Nat) :
    bitSet v k = v.getLsbD k := by
  unfold bitSet
  cases bit : v.getLsbD k with
  | false =>
    have none : v &&& (1#w <<< k) = 0 := by
      apply BitVec.eq_of_getLsbD_eq
      intro i _
      rw [getLsbD_and_shifted_one, bit]
      simp
    simp [none]
  | true =>
    have some : v &&& (1#w <<< k) ≠ 0 := by
      intro zero
      have read := getLsbD_and_shifted_one v k k
      rw [zero, bit] at read
      simp at read
    simpa using some

end MsxPulse.Firmware
