import MsxPulse.Library.Format
import MsxPulse.Firmware.CartServe.Image
import MsxPulse.Firmware.Ipc

/-!
# The DUMP command (cmd_dispatch.c)

Sixteen rows of sixteen bytes. A read outside the buffer or a write past the line's
array has no meaning in C; there the definitions give `none`.
-/

namespace MsxPulse.Firmware.CmdDispatch

open Library CString

/-- The first offset dumped for an argument, in 16-bit arithmetic. -/
def dumpOffset (argAddr : U16) : U16 :=
  let offset := if argAddr ≥ 0x4000#16 then argAddr - 0x4000#16 else argAddr
  if offset > 0x3F00#16 then 0x3F00#16 else offset

/-- What the loops of a row carry: the array `line` and the count `n`. -/
structure DumpLine where
  line : List U8
  n : Nat

/-- One print of the inner loop. -/
def DumpLine.print (l : DumpLine) (piece : List U8) : DumpLine :=
  ⟨vsnprintf l.line l.n (usbOutLineLen - l.n) piece, l.n + piece.length⟩

/-- The inner loop, from `b` on, `rounds` times at most. -/
def dumpBytes (sram : List U8) (base : U16) (b : Nat) : Nat → DumpLine → Option DumpLine
  | 0, l => some l
  | rounds + 1, l =>
    if l.n < usbOutLineLen - 4 then do
      let byte ← sram[base.toNat + b]?
      dumpBytes sram base (b + 1) rounds (l.print (ascii " " ++ hex 2 byte.toNat))
    else some l

/-- The line written for a row; `junk` is what the array holds before. -/
def dumpRow (sram : List U8) (offset : U16) (junk : CharArray usbOutLineLen) (row : Nat) :
    Option (List U8) := do
  let base := offset + BitVec.ofNat 16 (row * 16)
  let label := (0x4000#32 + base.setWidth 32).toNat
  let start := DumpLine.print ⟨junk.mem, 0⟩ (ascii "$" ++ hex 4 label ++ ascii ":")
  let l ← dumpBytes sram base 0 16 start
  let line ← strcat l.line [cr, lf]
  return text line

/-- `cmd_dump_hex`: the lines it writes. -/
def cmdDumpHex (sram : List U8) (argAddr : U16) (junk : CharArray usbOutLineLen) :
    Option (List (List U8)) :=
  (List.range 16).mapM (dumpRow sram (dumpOffset argAddr) junk)

/-! ## One row -/

/-- A row as the host reads it: a label and the bytes from there on. -/
def renderRow (label : Nat) (bytes : List U8) : List U8 :=
  ascii "$" ++ hex 4 label ++ ascii ":" ++ bytes.flatMap (fun b => ascii " " ++ hex 2 b.toNat) ++
    [cr, lf]

/-- The array holds the text printed so far, and `n` is its length. -/
structure DumpLine.Printed (l : DumpLine) (printed : List U8) : Prop where
  holds : Holds l.line printed
  size : l.line.length = usbOutLineLen
  count : l.n = printed.length

theorem DumpLine.Printed.print {l : DumpLine} {printed piece : List U8} (h : l.Printed printed)
    (nonzero : ∀ b ∈ piece, b ≠ 0) (fits : printed.length + piece.length < usbOutLineLen) :
    (l.print piece).Printed (printed ++ piece) := by
  have held := h.holds.vsnprintf nonzero
  have whole : piece.take (l.line.length - printed.length - 1) = piece :=
    List.take_of_length_le (by rw [h.size]; omega)
  have room := h.holds.room
  rw [whole, h.size, ← h.count] at held
  refine ⟨held, ?_, ?_⟩
  · rw [DumpLine.print, length_vsnprintf _ (by rw [h.size, h.count]; rw [h.size] at room; omega),
      h.size]
  · rw [DumpLine.print, h.count, List.length_append]

theorem visible_ne_zero {c : U8} (visible : 32 < c) : c ≠ 0 := by
  rintro rfl
  exact absurd visible (by decide)

theorem byte_piece_ne_zero (byte : U8) : ∀ b ∈ ascii " " ++ hex 2 byte.toNat, b ≠ 0 := by
  intro b inside
  rcases List.mem_append.mp inside with space | digits
  · rw [List.mem_singleton.mp space]
    decide
  · exact visible_ne_zero (visible_hex digits)

theorem length_byte_piece (byte : U8) : (ascii " " ++ hex 2 byte.toNat).length = 3 := by
  rw [List.length_append, length_hex (by decide) byte.isLt]
  rfl

/-- The inner loop prints the bytes it is asked for, all of them inside the buffer. -/
theorem dumpBytes_eq (sram : List U8) (base : U16) (rounds : Nat) {b : Nat} {l : DumpLine}
    {printed : List U8} (h : l.Printed printed) (len : printed.length = 6 + 3 * b)
    (last : b + rounds ≤ 16) (inside : base.toNat + b + rounds ≤ sram.length) :
    ∃ l', dumpBytes sram base b rounds l = some l' ∧ l'.Printed (printed ++
      ((sram.drop (base.toNat + b)).take rounds).flatMap fun v => ascii " " ++ hex 2 v.toNat) := by
  induction rounds generalizing b l printed with
  | zero => exact ⟨l, rfl, by simpa using h⟩
  | succ rounds ih =>
    have here : base.toNat + b < sram.length := by omega
    have line : l.n < usbOutLineLen - 4 := by
      rw [h.count, len]
      show 6 + 3 * b < 76
      omega
    obtain ⟨byte, read⟩ : ∃ byte, sram[base.toNat + b]? = some byte :=
      ⟨_, List.getElem?_eq_getElem here⟩
    have piece := length_byte_piece byte
    have next := h.print (byte_piece_ne_zero byte) (by
      rw [piece, len]
      show 6 + 3 * b + 3 < 80
      omega)
    obtain ⟨l', loop, done⟩ := ih (b := b + 1) next
      (by rw [List.length_append, piece, len]; omega) (by omega) (by omega)
    refine ⟨l', ?_, ?_⟩
    · rw [dumpBytes, if_pos line, read]
      exact loop
    · have split : (sram.drop (base.toNat + b)).take (rounds + 1) =
          byte :: (sram.drop (base.toNat + (b + 1))).take rounds := by
        rw [List.drop_eq_getElem_cons here, List.take_succ_cons, Nat.add_assoc]
        rw [List.getElem?_eq_getElem here] at read
        rw [Option.some.inj read]
      rw [split, List.flatMap_cons, ← List.append_assoc]
      exact done

theorem toNat_dumpBase {offset : U16} (low : offset.toNat ≤ 0x3F00) {row : Nat} (inside : row < 16) :
    (offset + BitVec.ofNat 16 (row * 16)).toNat = offset.toNat + row * 16 := by
  rw [BitVec.toNat_add, BitVec.toNat_ofNat]
  omega

theorem toNat_label (base : U16) : (0x4000#32 + base.setWidth 32).toNat = 0x4000 + base.toNat := by
  have small := base.isLt
  rw [BitVec.toNat_add, BitVec.toNat_setWidth]
  show (0x4000 + base.toNat % 2 ^ 32) % 2 ^ 32 = _
  omega

/-- The text of a label. -/
def labelText (label : Nat) : List U8 := ascii "$" ++ hex 4 label ++ ascii ":"

theorem length_labelText {label : Nat} (small : label < 0x10000) : (labelText label).length = 6 := by
  rw [labelText, List.length_append, List.length_append, length_hex (by decide) small]
  rfl

theorem labelText_ne_zero (label : Nat) : ∀ b ∈ labelText label, b ≠ 0 := by
  intro b inside
  rcases List.mem_append.mp inside with front | colon
  · rcases List.mem_append.mp front with mark | digits
    · rw [List.mem_singleton.mp mark]
      decide
    · exact visible_ne_zero (visible_hex digits)
  · rw [List.mem_singleton.mp colon]
    decide

theorem length_bytes (bytes : List U8) :
    (bytes.flatMap fun b => ascii " " ++ hex 2 b.toNat).length = 3 * bytes.length := by
  induction bytes with
  | nil => rfl
  | cons b bytes ih =>
    rw [List.flatMap_cons, List.length_append, length_byte_piece, ih, List.length_cons]
    omega

/-- A row below the clamp reads inside the buffer and prints what it reads. -/
theorem dumpRow_eq {sram : List U8} (size : sram.length = 16384) {offset : U16}
    (low : offset.toNat ≤ 0x3F00) (junk : CharArray usbOutLineLen) {row : Nat} (inside : row < 16) :
    dumpRow sram offset junk row =
      some (renderRow (0x4000 + offset.toNat + 16 * row)
        ((sram.drop (offset.toNat + 16 * row)).take 16)) := by
  have base := toNat_dumpBase low inside
  have label : (0x4000#32 + (offset + BitVec.ofNat 16 (row * 16)).setWidth 32).toNat =
      0x4000 + offset.toNat + 16 * row := by
    rw [toNat_label, base]
    omega
  have small : 0x4000 + offset.toNat + 16 * row < 0x10000 := by omega
  have headLen := length_labelText small
  have start : (DumpLine.print ⟨junk.mem, 0⟩
      (labelText (0x4000 + offset.toNat + 16 * row))).Printed
        (labelText (0x4000 + offset.toNat + 16 * row)) := by
    have held := holds_vsnprintf_start junk.mem (by rw [junk.length_mem]; decide)
      (labelText_ne_zero (0x4000 + offset.toNat + 16 * row))
    have short : (labelText (0x4000 + offset.toNat + 16 * row)).take (junk.mem.length - 1) =
        labelText (0x4000 + offset.toNat + 16 * row) :=
      List.take_of_length_le (by rw [headLen, junk.length_mem]; decide)
    rw [short, junk.length_mem] at held
    refine ⟨held, ?_, Nat.zero_add _⟩
    rw [DumpLine.print, length_vsnprintf _ (by rw [junk.length_mem, Nat.zero_add]; exact le_rfl),
      junk.length_mem]
  obtain ⟨l, loop, printed⟩ := dumpBytes_eq sram
    (offset + BitVec.ofNat 16 (row * 16)) 16 (b := 0) start headLen le_rfl (by omega)
  have full : ((sram.drop (offset.toNat + 16 * row)).take 16).length = 16 := by
    rw [List.length_take, List.length_drop]
    omega
  rw [base, Nat.add_zero, Nat.mul_comm row 16] at printed
  obtain ⟨line, ended, -, held⟩ := printed.holds.strcat [cr, lf] (by
    rw [printed.size, List.length_append, headLen, length_bytes, full]
    decide) (by decide)
  show (dumpBytes sram (offset + BitVec.ofNat 16 (row * 16)) 0 16
    (DumpLine.print ⟨junk.mem, 0⟩ (labelText
      (0x4000#32 + (offset + BitVec.ofNat 16 (row * 16)).setWidth 32).toNat))).bind
        (fun l => (strcat l.line [cr, lf]).bind fun line => some (text line)) = _
  rw [label, loop, Option.bind_some, ended, Option.bind_some, held.text]
  rfl

theorem mapM_eq_some_map {α β : Type} {f : α → Option β} {g : α → β} {l : List α}
    (h : ∀ x ∈ l, f x = some (g x)) : l.mapM f = some (l.map g) := by
  induction l with
  | nil => rfl
  | cons x l ih =>
    rw [List.mapM_cons, h x List.mem_cons_self, ih fun y inside => h y (List.mem_cons_of_mem _ inside)]
    rfl

/-! ## The command -/

theorem dumpOffset_le (argAddr : U16) : (dumpOffset argAddr).toNat ≤ 0x3F00 := by
  have clamp (offset : U16) :
      (if offset > 0x3F00#16 then 0x3F00#16 else offset).toNat ≤ 0x3F00 := by
    split
    · decide
    · next low => exact Nat.le_of_not_lt low
  exact clamp _

theorem clamp_covers {offset : U16} {addr : Nat} (inside : addr < 0x4000)
    (same : offset.toNat = addr) :
    (if offset > 0x3F00#16 then 0x3F00#16 else offset).toNat ≤ addr ∧
      addr ≤ (if offset > 0x3F00#16 then 0x3F00#16 else offset).toNat + 255 := by
  split
  · next high =>
    have high : 0x3F00 < offset.toNat := high
    show 0x3F00 ≤ addr ∧ addr ≤ 0x3F00 + 255
    omega
  · omega

/-- An argument inside the window, with or without its base, is in the dumped range. -/
theorem dumpOffset_covers {argAddr : U16} {addr : Nat} (inside : addr < 0x4000)
    (given : argAddr.toNat = addr ∨ argAddr.toNat = 0x4000 + addr) :
    (dumpOffset argAddr).toNat ≤ addr ∧ addr ≤ (dumpOffset argAddr).toNat + 255 := by
  apply clamp_covers inside
  split
  · next high =>
    have high : 0x4000 ≤ argAddr.toNat := high
    rw [BitVec.toNat_sub_of_le high]
    show argAddr.toNat - 0x4000 = addr
    omega
  · next low =>
    have low : ¬ 0x4000 ≤ argAddr.toNat := low
    omega

open CartServe

/-- What the image holds at an address of the window, 0xFF where it has ended. -/
def imageByte (image : List U8) (addr : Nat) : U8 := (image[addr - 0x4000]?).getD 0xFF

theorem initCopies_lut (s : RomCopies) (romImage : Option (List U8)) (addr : U16) :
    (initCopies s romImage (romImage.getD []).length).lut addr =
      if 0x4000 ≤ addr.toNat ∧ addr.toNat ≤ 0x7FFF then imageByte (romImage.getD []) addr.toNat
      else 0xFF := by
  rw [initCopies_table, RomLut.romLutBuild_apply, initCopies_sram, copyImage_getD]
  split
  · next inside =>
    have fits : addr.toNat - 0x4000 < romSramSize := by
      unfold romSramSize
      omega
    rw [RomLut.windowByte, getElem_copyImage _ _ fits, Option.getD_some, imageByte]
  · rfl

/-- Sixteen bytes of the buffer are the table's at the same addresses. -/
theorem sram_eq_lut (s : RomCopies) (romImage : Option (List U8)) {offset : Nat}
    (inside : offset + 16 ≤ 0x4000) :
    ((initCopies s romImage (romImage.getD []).length).sram.mem.drop offset).take 16 =
      (List.range 16).map fun b =>
        (initCopies s romImage (romImage.getD []).length).lut
          (BitVec.ofNat 16 (0x4000 + offset + b)) := by
  refine List.ext_getElem? fun b => ?_
  rw [List.getElem?_map, List.getElem?_take]
  by_cases row : b < 16
  · have addr : (BitVec.ofNat 16 (0x4000 + (offset + b))).toNat = 0x4000 + (offset + b) := by
      rw [BitVec.toNat_ofNat]
      exact Nat.mod_eq_of_lt (by omega)
    have index : 0x4000 + (offset + b) - 0x4000 = offset + b := Nat.add_sub_cancel_left _ _
    have fits : offset + b < romSramSize := by
      unfold romSramSize
      omega
    rw [if_pos row, List.getElem?_drop, initCopies_sram, copyImage_getD, getElem_copyImage _ _ fits,
      List.getElem?_range row, Option.map_some, initCopies_lut, Nat.add_assoc, addr,
      if_pos (by omega), imageByte, index]
  · rw [if_neg row, List.getElem?_eq_none (by rw [List.length_range]; omega), Option.map_none]

/-- The MSX and the DUMP command see the same ROM: the table holds the image in its
window and 0xFF elsewhere, and DUMP reads inside the buffer and prints the table's
bytes at 256 consecutive addresses of the window, the requested one among them. -/
theorem rom_views_agree (s : RomCopies) (romImage : Option (List U8)) :
    let image := romImage.getD []
    let rom := initCopies s romImage image.length
    (∀ addr : U16, rom.lut addr =
      if 0x4000 ≤ addr.toNat ∧ addr.toNat ≤ 0x7FFF then imageByte image addr.toNat else 0xFF) ∧
    ∀ (argAddr : U16) (junk : CharArray usbOutLineLen), ∃ start,
      0x4000 ≤ start ∧ start + 255 ≤ 0x7FFF ∧
      cmdDumpHex rom.sram.mem argAddr junk = some ((List.range 16).map fun row =>
        renderRow (start + 16 * row) ((List.range 16).map fun b =>
          rom.lut (BitVec.ofNat 16 (start + 16 * row + b)))) ∧
      ∀ addr < 0x4000, argAddr.toNat = addr ∨ argAddr.toNat = 0x4000 + addr →
        start ≤ 0x4000 + addr ∧ 0x4000 + addr ≤ start + 255 := by
  intro image rom
  refine ⟨initCopies_lut s romImage, fun argAddr junk => ?_⟩
  have low := dumpOffset_le argAddr
  refine ⟨0x4000 + (dumpOffset argAddr).toNat, by omega, by omega, ?_, fun addr inside given => ?_⟩
  · refine mapM_eq_some_map fun row member => ?_
    have row_lt : row < 16 := List.mem_range.mp member
    have bytes := sram_eq_lut s romImage (show (dumpOffset argAddr).toNat + 16 * row + 16 ≤ 0x4000 by omega)
    rw [dumpRow_eq rom.sram.length_mem low junk row_lt]
    rw [bytes]
    simp only [Nat.add_assoc]
    rfl
  · have covers := dumpOffset_covers inside given
    omega

end MsxPulse.Firmware.CmdDispatch
