import MsxPulse.Library.CString
import MsxPulse.Firmware.RomLut

/-!
# The two copies of the ROM image (cart_serve.c)

`cart_serve_init` copies the image in logical order for DUMP and builds the table
that answers the MSX from that copy.
-/

namespace MsxPulse.Firmware.CartServe

open Library

/-- `sizeof(rom_sram)` -/
def romSramSize : Nat := 16384

structure RomCopies where
  /-- `rom_sram` -/
  sram : CharArray romSramSize
  /-- `rom_lut` -/
  lut : U16 → U8

/-- The copy and the padding; `none` is the null pointer. -/
def copyImage (sram : CharArray romSramSize) (romImage : Option (List U8)) (romSize : Nat) :
    CharArray romSramSize :=
  let copyLen := if romSize < romSramSize then romSize else romSramSize
  let copied := match romImage with
    | some image => if copyLen ≠ 0 then sram.overwrite 0 (image.take copyLen) else sram
    | none => sram
  if copyLen < romSramSize then
    copied.overwrite copyLen (List.replicate (romSramSize - copyLen) 0xFF)
  else copied

/-- The memory that `cart_serve_init` fills. -/
def initCopies (s : RomCopies) (romImage : Option (List U8)) (romSize : Nat) : RomCopies :=
  let sram := copyImage s.sram romImage romSize
  { sram, lut := RomLut.romLutBuild sram.mem }

theorem initCopies_sram (s : RomCopies) (romImage : Option (List U8)) (romSize : Nat) :
    (initCopies s romImage romSize).sram = copyImage s.sram romImage romSize := by
  rw [initCopies]

theorem initCopies_table (s : RomCopies) (romImage : Option (List U8)) (romSize : Nat) :
    (initCopies s romImage romSize).lut =
      RomLut.romLutBuild (initCopies s romImage romSize).sram.mem := by
  rw [initCopies]

theorem mem_overwrite_start (sram : CharArray romSramSize) {bytes : List U8}
    (fits : bytes.length ≤ romSramSize) :
    (sram.overwrite 0 bytes).mem = bytes ++ sram.mem.drop bytes.length := by
  rw [CharArray.mem_overwrite _ (by omega), List.take_zero, List.nil_append, Nat.zero_add]

/-- The buffer is the image, cut to the buffer's size and padded with 0xFF. -/
theorem mem_copyImage (sram : CharArray romSramSize) (image : List U8) :
    (copyImage sram (some image) image.length).mem =
      image.take romSramSize ++ List.replicate (romSramSize - image.length) 0xFF := by
  unfold copyImage
  by_cases short : image.length < romSramSize
  · have whole : image.take romSramSize = image := List.take_of_length_le (by omega)
    have size := sram.length_mem
    simp only [if_pos short]
    by_cases empty : image.length ≠ 0
    · rw [if_pos empty, CharArray.mem_overwrite _ (by rw [List.length_replicate]; omega),
        List.take_length, mem_overwrite_start _ (by omega), List.take_left, whole,
        List.length_replicate, List.drop_of_length_le, List.append_nil]
      rw [List.length_append, List.length_drop]
      omega
    · have nil : image = [] := List.length_eq_zero_iff.mp (not_not.mp empty)
      subst nil
      rw [if_neg empty, CharArray.mem_overwrite _ (by rw [List.length_replicate]; simp),
        List.length_replicate, List.drop_of_length_le (by simp [size])]
      simp
  · simp only [if_neg short, Nat.lt_irrefl, if_false]
    rw [if_pos (by decide), mem_overwrite_start _ (List.length_take_le _ _), List.length_take,
      Nat.min_eq_left (by omega), List.drop_of_length_le sram.length_mem.le,
      Nat.sub_eq_zero_of_le (by omega)]
    rfl

/-- The null pointer with length 0 is the empty image. -/
theorem copyImage_getD (sram : CharArray romSramSize) (romImage : Option (List U8)) :
    copyImage sram romImage (romImage.getD []).length =
      copyImage sram (some (romImage.getD [])) (romImage.getD []).length := by
  cases romImage with
  | none => rfl
  | some image => rw [Option.getD_some]

/-- Every byte of the buffer is the image's or padding. -/
theorem getElem_copyImage (sram : CharArray romSramSize) (image : List U8) {i : Nat}
    (inside : i < romSramSize) :
    (copyImage sram (some image) image.length).mem[i]? = some ((image[i]?).getD 0xFF) := by
  rw [mem_copyImage]
  by_cases given : i < image.length
  · rw [List.getElem?_append_left (by rw [List.length_take]; omega), List.getElem?_take,
      if_pos inside, List.getElem?_eq_getElem given]
    rfl
  · have size : (image.take romSramSize).length = image.length := by
      rw [List.length_take]
      omega
    rw [List.getElem?_append_right (by omega), size, List.getElem?_replicate, if_pos (by omega),
      List.getElem?_eq_none (Nat.le_of_not_lt given)]
    rfl

end MsxPulse.Firmware.CartServe
