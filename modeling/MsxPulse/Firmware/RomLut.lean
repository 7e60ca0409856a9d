import Mathlib.Logic.Function.Basic
import MsxPulse.Firmware.Types

/-!
# The lookup table of the ROM emulator (rom_lut.c)

The table has an entry for every value of the sixteen address pins.
-/

namespace MsxPulse.Firmware.RomLut

/-- The address bus is wired one to one. -/
def reversePermute (a : U16) : U16 := a

/-- So is the data bus. -/
def permuteData (b : U8) : U8 := b

@[simp] theorem reversePermute_eq (a : U16) : reversePermute a = a := rfl

@[simp] theorem permuteData_eq (b : U8) : permuteData b = b := rfl

/-- The loop body of `rom_lut_build`. -/
def buildEntry (sram : List U8) (lut : U16 → U8) (logical : Nat) : U16 → U8 :=
  let srcIdx := logical - 0x4000
  let byte := if srcIdx < sram.length then sram.getD srcIdx 0 else 0xFF
  Function.update lut (reversePermute (BitVec.ofNat 16 logical)) (permuteData byte)

/-- `rom_lut_build`: the loop runs over 0x4000 to 0x7FFF. -/
def romLutBuild (sram : List U8) : U16 → U8 :=
  (List.range' 0x4000 0x4000).foldl (buildEntry sram) fun _ => 0xFF

/-- A byte of the window, 0xFF where the buffer ends before it. -/
def windowByte (sram : List U8) (addr : Nat) : U8 := (sram[addr - 0x4000]?).getD 0xFF

theorem guarded_read (sram : List U8) (i : Nat) :
    (if i < sram.length then sram.getD i 0 else 0xFF) = (sram[i]?).getD 0xFF := by
  split
  · next inside => simp [List.getD_eq_getElem?_getD, inside]
  · next outside => simp [Nat.le_of_not_lt outside]

-- The identity permutations are rewritten away one by one: unfolding them at once makes
-- the kernel compute with the window's base.
theorem buildEntry_same (sram : List U8) (lut : U16 → U8) (logical : Nat) :
    buildEntry sram lut logical (BitVec.ofNat 16 logical) = windowByte sram logical := by
  have entry : buildEntry sram lut logical =
      Function.update lut (reversePermute (BitVec.ofNat 16 logical)) (permuteData
        (if logical - 0x4000 < sram.length then sram.getD (logical - 0x4000) 0 else 0xFF)) := rfl
  rw [entry, reversePermute_eq, permuteData_eq, Function.update_self, guarded_read, windowByte]

theorem buildEntry_other (sram : List U8) (lut : U16 → U8) {logical : Nat} {raw : U16}
    (other : raw ≠ BitVec.ofNat 16 logical) : buildEntry sram lut logical raw = lut raw :=
  Function.update_of_ne other _ _

/-- After `count` rounds the entries of the first `count` addresses are set. -/
theorem build_rounds (sram : List U8) {count : Nat} (bound : count ≤ 0x4000) (raw : U16) :
    (List.range' 0x4000 count).foldl (buildEntry sram) (fun _ => 0xFF) raw =
      if 0x4000 ≤ raw.toNat ∧ raw.toNat < 0x4000 + count then windowByte sram raw.toNat
      else 0xFF := by
  induction count with
  | zero => exact (if_neg (by omega)).symm
  | succ count ih =>
    have earlier := ih (by omega)
    rw [List.range'_concat, List.foldl_append, List.foldl_cons, List.foldl_nil, Nat.one_mul]
    by_cases last : raw = BitVec.ofNat 16 (0x4000 + count)
    · have value : raw.toNat = 0x4000 + count := by
        rw [last, BitVec.toNat_ofNat]
        exact Nat.mod_eq_of_lt (by omega)
      rw [last, buildEntry_same, ← last, value, if_pos (by omega)]
    · have other : raw.toNat ≠ 0x4000 + count := fun same =>
        last (by rw [← same, BitVec.ofNat_toNat, BitVec.setWidth_eq])
      rw [buildEntry_other sram _ last, earlier]
      by_cases inside : 0x4000 ≤ raw.toNat ∧ raw.toNat < 0x4000 + count
      · rw [if_pos inside, if_pos ⟨inside.1, by omega⟩]
      · rw [if_neg inside, if_neg fun h => inside ⟨h.1, by omega⟩]

/-- The table is the window of the buffer, and 0xFF at every other address. -/
theorem romLutBuild_apply (sram : List U8) (raw : U16) :
    romLutBuild sram raw =
      if 0x4000 ≤ raw.toNat ∧ raw.toNat ≤ 0x7FFF then windowByte sram raw.toNat else 0xFF := by
  rw [romLutBuild, build_rounds sram (Nat.le_refl _)]
  by_cases inside : 0x4000 ≤ raw.toNat ∧ raw.toNat ≤ 0x7FFF
  · rw [if_pos inside, if_pos ⟨inside.1, by omega⟩]
  · rw [if_neg inside, if_neg fun h => inside ⟨h.1, by omega⟩]

end MsxPulse.Firmware.RomLut
