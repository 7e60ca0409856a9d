import Mathlib.Algebra.Group.Nat.Defs

/-!
# Timers on a wrapping millisecond counter

A 32-bit static remembers when something was last done. As long as that is less than
half the counter's range ago, the wrapped difference tells how long ago it was.
-/

namespace MsxPulse.Library

/-- `last` is the counter at the time `done`, and that is not long ago. -/
structure Since (last : BitVec 32) (done now : Nat) : Prop where
  value : last = BitVec.ofNat 32 done
  past : done ≤ now
  near : now < done + 2 ^ 31

theorem since_now (now : Nat) : Since (BitVec.ofNat 32 now) now now :=
  ⟨rfl, Nat.le_refl now, Nat.lt_add_of_pos_right (by decide)⟩

namespace Since

variable {last : BitVec 32} {done now later interval : Nat}

/-- The wrapped comparison is the comparison of the times. -/
theorem due_iff (since : Since last done now) (forward : now ≤ later)
    (soon : later < now + 2 ^ 31) (fits : interval < 2 ^ 32) :
    BitVec.ofNat 32 later - last ≥ BitVec.ofNat 32 interval ↔ done + interval ≤ later := by
  obtain ⟨rfl, past, near⟩ := since
  obtain ⟨d, rfl⟩ := Nat.exists_eq_add_of_le (Nat.le_trans past forward)
  have difference : BitVec.ofNat 32 (done + d) - BitVec.ofNat 32 done = BitVec.ofNat 32 d := by
    rw [BitVec.ofNat_add, BitVec.add_comm, BitVec.add_sub_cancel]
  rw [difference, ge_iff_le, BitVec.le_def, BitVec.toNat_ofNat, BitVec.toNat_ofNat,
    Nat.mod_eq_of_lt fits, Nat.mod_eq_of_lt (by omega)]
  omega

/-- A timer that has not run out goes on. -/
theorem keep (since : Since last done now) (forward : now ≤ later)
    (early : later < done + interval) (short : interval ≤ 2 ^ 31) : Since last done later :=
  ⟨since.value, Nat.le_trans since.past forward,
    Nat.lt_of_lt_of_le early (Nat.add_le_add_left short done)⟩

end Since

end MsxPulse.Library
