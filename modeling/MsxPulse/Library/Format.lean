import Mathlib.Algebra.GroupWithZero.Nat
import MsxPulse.Library.CString

/-!
# Formatting into `char` arrays

The conversions `%u`, `%X` with a minimal width, and `vsnprintf` and `strcat` with
their effect on the whole array.
-/

namespace MsxPulse.Library

namespace CString

def byteOf (c : Char) : Byte := BitVec.ofNat 8 c.toNat

/-- `%u` -/
def decimal (n : Nat) : List Byte := (Nat.toDigits 10 n).map byteOf

/-- `%0<width>X` -/
def hex (width n : Nat) : List Byte :=
  let digits := (Nat.toDigits 16 n).map fun c => byteOf c.toUpper
  List.replicate (width - digits.length) 48 ++ digits

theorem length_decimal_le {n k : Nat} (positive : 0 < k) (small : n < 10 ^ k) :
    (decimal n).length ≤ k := by
  rw [decimal, List.length_map]
  exact (Nat.length_toDigits_le_iff (by decide) positive).mpr small

theorem length_hex {n width : Nat} (positive : 0 < width) (small : n < 16 ^ width) :
    (hex width n).length = width := by
  have short : (Nat.toDigits 16 n).length ≤ width :=
    (Nat.length_toDigits_le_iff (by decide) positive).mpr small
  simp only [hex, List.length_append, List.length_replicate, List.length_map]
  omega

theorem exists_digit_of_mem {b n : Nat} (base : 1 < b) {c : Char} (h : c ∈ Nat.toDigits b n) :
    ∃ d, d < b ∧ c = d.digitChar := by
  induction n using Nat.strongRecOn with
  | ind n ih =>
    rw [Nat.toDigits_eq_if base] at h
    split at h
    · next small => exact ⟨n, small, List.mem_singleton.mp h⟩
    · next large =>
      rcases List.mem_append.mp h with front | last
      · exact ih (n / b) (Nat.div_lt_self (by omega) base) front
      · exact ⟨n % b, Nat.mod_lt _ (by omega), List.mem_singleton.mp last⟩

/-- A decimal digit. -/
def Digit (c : Byte) : Prop := 48 ≤ c ∧ c ≤ 57

theorem digit_decimal {n : Nat} {c : Byte} (h : c ∈ decimal n) : Digit c := by
  obtain ⟨digit, inside, rfl⟩ := List.mem_map.mp h
  obtain ⟨d, small, rfl⟩ := exists_digit_of_mem (by decide) inside
  have all : ∀ d < 10, (48 : Byte) ≤ byteOf (Nat.digitChar d) ∧ byteOf (Nat.digitChar d) ≤ 57 := by
    decide
  exact all d small

theorem decimal_ne_nil (n : Nat) : decimal n ≠ [] := by
  rw [decimal, ne_eq, List.map_eq_nil_iff]
  exact Nat.toDigits_ne_nil

theorem chars_decimal (n : Nat) :
    (decimal n).map (fun c => Char.ofNat c.toNat) = Nat.toDigits 10 n := by
  have back : ∀ c ∈ Nat.toDigits 10 n, Char.ofNat (byteOf c).toNat = c := by
    intro c inside
    obtain ⟨d, small, rfl⟩ := exists_digit_of_mem (by decide) inside
    have all : ∀ d < 10, Char.ofNat (byteOf (Nat.digitChar d)).toNat = Nat.digitChar d := by decide
    exact all d small
  rw [decimal, List.map_map]
  exact (List.map_congr_left back).trans (List.map_id _)

/-- Two numbers are not printed alike. -/
theorem decimal_injective {m n : Nat} (h : decimal m = decimal n) : m = n := by
  have digits : Nat.toDigits 10 m = Nat.toDigits 10 n := by
    rw [← chars_decimal, h, chars_decimal]
  have value := congrArg (Nat.ofDigitChars 10 · 0) digits
  simpa only [Nat.ofDigitChars_ten_toDigits] using value

/-- Numbers are printed in visible characters: no NUL, line end or blank. -/
theorem visible_decimal {n : Nat} {c : Byte} (h : c ∈ decimal n) : 32 < c := by
  obtain ⟨digit, inside, rfl⟩ := List.mem_map.mp h
  obtain ⟨d, small, rfl⟩ := exists_digit_of_mem (by decide) inside
  have all : ∀ d < 10, (32 : Byte) < byteOf (Nat.digitChar d) := by decide
  exact all d small

theorem visible_hex {width n : Nat} {c : Byte} (h : c ∈ hex width n) : 32 < c := by
  rcases List.mem_append.mp h with padding | digits
  · rw [List.eq_of_mem_replicate padding]
    decide
  · obtain ⟨digit, inside, rfl⟩ := List.mem_map.mp digits
    obtain ⟨d, small, rfl⟩ := exists_digit_of_mem (by decide) inside
    have all : ∀ d < 16, (32 : Byte) < byteOf (Nat.digitChar d).toUpper := by decide
    exact all d small

/-- No control characters. -/
def Printable (l : List Byte) : Prop := ∀ b ∈ l, blank ≤ b

/-- The characters of a literal, tested on their code points. -/
def printableChars (cs : List Char) : Bool :=
  cs.all fun c => Nat.ble 32 c.toNat && Nat.ble c.toNat 127

theorem printable_ascii {cs : List Char} (h : printableChars cs = true) :
    Printable (ascii (String.ofList cs)) := by
  rw [ascii_ofList]
  intro b inside
  obtain ⟨c, member, rfl⟩ := List.mem_map.mp inside
  have range := List.all_eq_true.mp h c member
  rw [Bool.and_eq_true, Nat.ble_eq, Nat.ble_eq] at range
  rw [BitVec.le_def, BitVec.toNat_ofNat, Nat.mod_eq_of_lt (by omega)]
  exact range.1

/-- The same for control characters. -/
def nonzeroChars (cs : List Char) : Bool :=
  cs.all fun c => Nat.ble 1 c.toNat && Nat.ble c.toNat 127

theorem nonzero_ascii {cs : List Char} (h : nonzeroChars cs = true) :
    ∀ b ∈ ascii (String.ofList cs), b ≠ 0 := by
  rw [ascii_ofList]
  intro b inside zero
  obtain ⟨c, member, rfl⟩ := List.mem_map.mp inside
  have range := List.all_eq_true.mp h c member
  rw [Bool.and_eq_true, Nat.ble_eq, Nat.ble_eq] at range
  have value := congrArg BitVec.toNat zero
  rw [BitVec.toNat_ofNat, Nat.mod_eq_of_lt (by omega)] at value
  exact absurd value (by show ¬c.toNat = 0; omega)

theorem nonzero_append {l m : List Byte} (hl : ∀ b ∈ l, b ≠ 0) (hm : ∀ b ∈ m, b ≠ 0) :
    ∀ b ∈ l ++ m, b ≠ 0 :=
  List.forall_mem_append.mpr ⟨hl, hm⟩

theorem Printable.append {l m : List Byte} (hl : Printable l) (hm : Printable m) :
    Printable (l ++ m) :=
  fun b inside => (List.mem_append.mp inside).elim (hl b) (hm b)

theorem Printable.flatten {ls : List (List Byte)} (h : ∀ l ∈ ls, Printable l) :
    Printable ls.flatten := by
  intro b inside
  obtain ⟨l, member, here⟩ := List.mem_flatten.mp inside
  exact h l member b here

theorem printable_decimal (n : Nat) : Printable (decimal n) :=
  fun _ inside => BitVec.le_of_lt (visible_decimal inside)

theorem printable_hex (width n : Nat) : Printable (hex width n) :=
  fun _ inside => BitVec.le_of_lt (visible_hex inside)

theorem Printable.nonzero {l : List Byte} (h : Printable l) : ∀ b ∈ l, b ≠ 0 := by
  rintro b inside rfl
  exact absurd (h 0 inside) (by decide)

/-! ## Writing into arrays -/

/-- `vsnprintf(mem + off, size, ...)` of a format that expands to `s`. -/
def vsnprintf (mem : List Byte) (off size : Nat) (s : List Byte) : List Byte :=
  if size = 0 then mem
  else mem.take off ++ s.take (size - 1) ++
    0 :: mem.drop (off + min s.length (size - 1) + 1)

/-- `strcat(mem, s)`, if the result fits the array. -/
def strcat (mem s : List Byte) : Option (List Byte) :=
  if strlen mem + s.length < mem.length then
    some (mem.take (strlen mem) ++ s ++ 0 :: mem.drop (strlen mem + s.length + 1))
  else none

/-- The array holds the string, with room for its terminator. -/
structure Holds (mem s : List Byte) : Prop where
  text : text mem = s
  room : s.length < mem.length

theorem Holds.take {mem s : List Byte} (h : Holds mem s) : mem.take s.length = s := by
  have starts : s <+: mem := h.text ▸ List.takeWhile_prefix _
  exact (List.prefix_iff_eq_take.mp starts).symm

theorem Holds.nonzero {mem s : List Byte} (h : Holds mem s) : ∀ b ∈ s, b ≠ 0 :=
  h.text ▸ fun _ => ne_zero_of_mem_text

theorem length_vsnprintf {mem : List Byte} {off size : Nat} (s : List Byte)
    (inside : off + size ≤ mem.length) : (vsnprintf mem off size s).length = mem.length := by
  unfold vsnprintf
  split
  · rfl
  · simp only [List.length_append, List.length_cons, List.length_take, List.length_drop]
    omega

/-- Printing behind the string that an array holds appends what fits. -/
theorem Holds.vsnprintf {mem s : List Byte} (h : Holds mem s) {piece : List Byte}
    (nonzero : ∀ b ∈ piece, b ≠ 0) :
    Holds (vsnprintf mem s.length (mem.length - s.length) piece)
      (s ++ piece.take (mem.length - s.length - 1)) := by
  have room := h.room
  refine ⟨?_, ?_⟩
  · unfold CString.vsnprintf
    rw [if_neg (by omega), h.take]
    refine text_append_nul fun b inside => ?_
    rcases List.mem_append.mp inside with old | new
    · exact h.nonzero b old
    · exact nonzero b (List.mem_of_mem_take new)
  · rw [length_vsnprintf _ (by omega), List.length_append, List.length_take]
    omega

/-- The first print into an array, whatever it held. -/
theorem holds_vsnprintf_start (mem : List Byte) {piece : List Byte} (some : 0 < mem.length)
    (nonzero : ∀ b ∈ piece, b ≠ 0) :
    Holds (vsnprintf mem 0 mem.length piece) (piece.take (mem.length - 1)) := by
  refine ⟨?_, ?_⟩
  · unfold vsnprintf
    rw [if_neg (by omega), List.take_zero, List.nil_append]
    exact text_append_nul fun b inside => nonzero b (List.mem_of_mem_take inside)
  · rw [length_vsnprintf _ (by omega), List.length_take]
    omega

theorem Holds.strcat {mem s : List Byte} (h : Holds mem s) (piece : List Byte)
    (fits : s.length + piece.length < mem.length) (nonzero : ∀ b ∈ piece, b ≠ 0) :
    ∃ mem', strcat mem piece = some mem' ∧ mem'.length = mem.length ∧ Holds mem' (s ++ piece) := by
  have len : strlen mem = s.length := congrArg List.length h.text
  have size : (mem.take s.length ++ piece ++ 0 :: mem.drop (s.length + piece.length + 1)).length =
      mem.length := by
    simp only [List.length_append, List.length_cons, List.length_take, List.length_drop]
    omega
  unfold CString.strcat
  rw [len, if_pos fits]
  refine ⟨_, rfl, size, ?_, ?_⟩
  · rw [h.take]
    refine text_append_nul fun b inside => ?_
    exact (List.mem_append.mp inside).elim (h.nonzero b) (nonzero b)
  · rw [size, List.length_append]
    exact fits

/-! ## Texts built by prints -/

/-- An array with the offset behind what has been printed into it. -/
structure PrintBuf where
  mem : List Byte
  off : Nat

namespace PrintBuf

/-- `appendf`: print at the offset and advance it, to the last byte at most. -/
def appendf (b : PrintBuf) (piece : List Byte) : PrintBuf :=
  if b.off ≥ b.mem.length then b
  else
    let off := b.off + piece.length
    { mem := vsnprintf b.mem b.off (b.mem.length - b.off) piece
      off := if off ≥ b.mem.length then b.mem.length - 1 else off }

variable {n : Nat} {b : PrintBuf} {full : List Byte}

/-- What fits of a piece goes behind what fits of the text. -/
theorem take_print {off : Nat} (end_ : off = min full.length (n - 1)) (piece : List Byte) :
    full.take (n - 1) ++ piece.take (n - off - 1) = (full ++ piece).take (n - 1) := by
  rw [List.take_append]
  rcases Nat.lt_or_ge (n - 1) full.length with cut | whole
  · rw [Nat.sub_eq_zero_of_le cut.le, show n - off - 1 = 0 by omega]
  · rw [show n - off - 1 = n - 1 - full.length by omega]

/-- An array that held `mem₀` has what fits of a text, a NUL behind it, and nothing else
written; the offset is the end of what fits. -/
structure Wrote (mem₀ : List Byte) (b : PrintBuf) (full : List Byte) : Prop where
  mem : b.mem = full.take (mem₀.length - 1) ++
    0 :: mem₀.drop (min full.length (mem₀.length - 1) + 1)
  off : b.off = min full.length (mem₀.length - 1)

variable {mem₀ : List Byte}

/-- The terminator at the start. -/
theorem wrote_nil (some : 0 < mem₀.length) : Wrote mem₀ ⟨mem₀.set 0 0, 0⟩ [] := by
  obtain ⟨b, rest, rfl⟩ := List.exists_cons_of_length_pos some
  refine ⟨?_, (Nat.zero_min _).symm⟩
  rw [List.take_nil, List.length_nil, Nat.zero_min]
  rfl

theorem wrote_first (some : 0 < mem₀.length) (piece : List Byte) :
    Wrote mem₀ (PrintBuf.appendf ⟨mem₀, 0⟩ piece) piece := by
  unfold PrintBuf.appendf
  simp only []
  rw [if_neg (by omega), Nat.sub_zero, Nat.zero_add]
  refine ⟨?_, ?_⟩
  · unfold vsnprintf
    rw [if_neg some.ne', List.take_zero, List.nil_append, Nat.zero_add]
  · show (if piece.length ≥ mem₀.length then mem₀.length - 1 else piece.length) = _
    split <;> omega

theorem Wrote.length_mem (h : b.Wrote mem₀ full) (some : 0 < mem₀.length) :
    b.mem.length = mem₀.length := by
  rw [h.mem, List.length_append, List.length_cons, List.length_take, List.length_drop]
  omega

theorem Wrote.appendf (h : b.Wrote mem₀ full) (some : 0 < mem₀.length) (piece : List Byte) :
    (b.appendf piece).Wrote mem₀ (full ++ piece) := by
  have size := h.length_mem some
  have off := h.off
  have held : (full.take (mem₀.length - 1)).length = b.off := by
    rw [off, List.length_take, Nat.min_comm]
  have behind : b.mem.drop (b.off + min piece.length (mem₀.length - b.off - 1) + 1) =
      mem₀.drop (b.off + min piece.length (mem₀.length - b.off - 1) + 1) := by
    rw [h.mem, ← off, Nat.add_assoc, ← List.drop_drop, List.drop_left' held, List.drop_succ_cons,
      List.drop_drop]
    congr 1
    omega
  unfold PrintBuf.appendf
  rw [size, if_neg (by omega)]
  refine ⟨?_, ?_⟩
  · show vsnprintf b.mem b.off (mem₀.length - b.off) piece = _
    unfold vsnprintf
    rw [if_neg (by omega), behind, h.mem, List.take_left' held, take_print off, List.length_append]
    congr 3
    omega
  · rw [List.length_append]
    show (if b.off + piece.length ≥ mem₀.length then mem₀.length - 1
      else b.off + piece.length) = _
    split <;> omega

theorem Wrote.foldl (h : b.Wrote mem₀ full) (some : 0 < mem₀.length) (pieces : List (List Byte)) :
    (pieces.foldl PrintBuf.appendf b).Wrote mem₀ (full ++ pieces.flatten) := by
  induction pieces generalizing b full with
  | nil => simpa using h
  | cons piece pieces ih =>
    rw [List.foldl_cons, List.flatten_cons, ← List.append_assoc]
    exact ih (h.appendf some piece)

/-- Behind a text that is cut, what is printed has no effect. -/
theorem Wrote.cut (h : b.Wrote mem₀ full) {b' : PrintBuf} {more : List Byte}
    (h' : b'.Wrote mem₀ (full ++ more)) (cut : mem₀.length - 1 ≤ full.length) : b' = b := by
  have same : (full ++ more).take (mem₀.length - 1) = full.take (mem₀.length - 1) :=
    List.take_append_of_le_length cut
  have ends : min (full ++ more).length (mem₀.length - 1) = min full.length (mem₀.length - 1) := by
    rw [List.length_append]
    omega
  have mems : b'.mem = b.mem := by rw [h'.mem, h.mem, same, ends]
  have offs : b'.off = b.off := by rw [h'.off, h.off, ends]
  cases b
  cases b'
  obtain rfl := mems
  obtain rfl := offs
  rfl

/-- An array of `mem₀`'s size holds what fits of a text, ended by a NUL inside, with what
`mem₀` had behind it; the offset is the length of what fits. -/
structure HoldsPrefix (mem₀ : List Byte) (b : PrintBuf) (full : List Byte) : Prop where
  inside : b.mem.length = mem₀.length
  text : text b.mem = full.take (mem₀.length - 1)
  kept : b.mem.drop (min full.length (mem₀.length - 1) + 1) =
    mem₀.drop (min full.length (mem₀.length - 1) + 1)
  length : b.off = min full.length (mem₀.length - 1)

theorem Wrote.holdsPrefix (h : b.Wrote mem₀ full) (some : 0 < mem₀.length)
    (nonzero : ∀ c ∈ full, c ≠ 0) : b.HoldsPrefix mem₀ full where
  inside := h.length_mem some
  text := by
    rw [h.mem]
    exact text_append_nul fun c inside => nonzero c (List.mem_of_mem_take inside)
  kept := by
    have size : (full.take (mem₀.length - 1)).length = min full.length (mem₀.length - 1) := by
      rw [List.length_take, Nat.min_comm]
    rw [h.mem, ← List.drop_drop, List.drop_left' size]
    rfl
  length := h.off

/-- The array of `n` bytes holds what fits of a text, and the offset is its end. -/
structure Printed (n : Nat) (b : PrintBuf) (full : List Byte) : Prop where
  size : b.mem.length = n
  holds : Holds b.mem (full.take (n - 1))
  off : b.off = min full.length (n - 1)

theorem HoldsPrefix.printed (h : b.HoldsPrefix mem₀ full) (some : 0 < mem₀.length) :
    b.Printed mem₀.length full where
  size := h.inside
  holds := by
    refine ⟨h.text, ?_⟩
    rw [h.inside, List.length_take]
    omega
  off := h.length

end PrintBuf

end CString

/-- `snprintf(a, sizeof(a), ...)` of a format that expands to `s`. -/
def CharArray.snprintf {n : Nat} (a : CharArray n) (s : List Byte) : CharArray n where
  mem := CString.vsnprintf a.mem 0 n s
  length_mem := by
    rw [CString.length_vsnprintf s (by rw [a.length_mem, Nat.zero_add]), a.length_mem]

theorem CharArray.text_snprintf {n : Nat} (a : CharArray n) (some : 0 < n) {s : List Byte}
    (nonzero : ∀ b ∈ s, b ≠ 0) : (a.snprintf s).text = s.take (n - 1) := by
  have held := CString.holds_vsnprintf_start a.mem (by rwa [a.length_mem]) nonzero
  rw [a.length_mem] at held
  exact held.text

/-- An array of `n` bytes shows `n - 1` characters at most. -/
theorem CharArray.length_text_snprintf {n : Nat} (a : CharArray n) (some : 0 < n) (s : List Byte) :
    (a.snprintf s).text.length ≤ n - 1 := by
  have cut (l rest : List Byte) : (CString.text (l ++ 0 :: rest)).length ≤ l.length := by
    induction l with
    | nil => exact Nat.le_refl 0
    | cons b l ih =>
      unfold CString.text
      rw [List.cons_append, List.takeWhile_cons]
      split
      · exact Nat.succ_le_succ ih
      · exact Nat.zero_le _
  have written : (a.snprintf s).text = CString.text
      (s.take (n - 1) ++ 0 :: a.mem.drop (0 + min s.length (n - 1) + 1)) := by
    show CString.text (CString.vsnprintf a.mem 0 n s) = _
    rw [CString.vsnprintf, if_neg some.ne', List.take_zero, List.nil_append]
  rw [written]
  exact Nat.le_trans (cut _ _) (List.length_take_le (n - 1) s)

end MsxPulse.Library
