import Mathlib.Data.List.TakeWhile

/-!
# C strings in `char` arrays

A `char` array is the list of its bytes, and the string it holds is what stands
before the first NUL. The copying functions are the standard library's, with
their effect on the whole destination: what they pad and what they leave.
-/

namespace MsxPulse.Library

abbrev Byte := BitVec 8

namespace CString

/-- The bytes of a literal, without its terminator. -/
def ascii (s : String) : List Byte := s.toList.map fun c => BitVec.ofNat 8 c.toNat

/-- A literal stands for the list of its characters. -/
theorem ascii_ofList (cs : List Char) :
    ascii (String.ofList cs) = cs.map fun c => BitVec.ofNat 8 c.toNat := by
  rw [ascii, String.toList_ofList]

theorem length_ascii {cs : List Char} {n : Nat} (h : cs.length = n) :
    (ascii (String.ofList cs)).length = n := by
  rw [ascii_ofList, List.length_map, h]

/-- A literal taken apart, by its characters. -/
theorem ascii_append {cs ds es : List Char} (h : cs = ds ++ es) :
    ascii (String.ofList cs) = ascii (String.ofList ds) ++ ascii (String.ofList es) := by
  rw [ascii_ofList, ascii_ofList, ascii_ofList, h, List.map_append]

def cr : Byte := 13
def lf : Byte := 10
def blank : Byte := 32
def tab : Byte := 9

/-- The string that an array holds. -/
def text (mem : List Byte) : List Byte := mem.takeWhile (· != 0)

def strlen (mem : List Byte) : Nat := (text mem).length

def strncpy (dst src : List Byte) (n : Nat) : List Byte :=
  (text src).take n ++ List.replicate (n - strlen src) 0 ++ dst.drop n

def memcpy (dst src : List Byte) (n : Nat) : List Byte := src.take n ++ dst.drop n

theorem ne_zero_of_mem_text {mem : List Byte} {b : Byte} (h : b ∈ text mem) : b ≠ 0 := by
  simpa using List.mem_takeWhile_imp h

theorem text_of_ne_zero {mem : List Byte} (h : ∀ b ∈ mem, b ≠ 0) : text mem = mem :=
  List.takeWhile_eq_self_iff.mpr fun b hb => by simpa using h b hb

theorem text_append_nul {mem rest : List Byte} (h : ∀ b ∈ mem, b ≠ 0) :
    text (mem ++ 0 :: rest) = mem := by
  unfold text
  rw [List.takeWhile_append_of_pos fun b hb => by simpa using h b hb]
  simp

@[simp] theorem length_strncpy (dst src : List Byte) {n : Nat} (fits : n ≤ dst.length) :
    (strncpy dst src n).length = dst.length := by
  simp only [strncpy, strlen, List.length_append, List.length_take, List.length_replicate,
    List.length_drop]
  omega

theorem length_memcpy (dst src : List Byte) (n : Nat) (same : src.length = dst.length) :
    (memcpy dst src n).length = dst.length := by
  simp only [memcpy, List.length_append, List.length_take, List.length_drop]
  omega

/-- Writing the byte behind what an array starts with extends it. -/
theorem prefix_set {mem line : List Byte} (starts : line <+: mem) (room : line.length < mem.length)
    (b : Byte) : line ++ [b] <+: mem.set line.length b := by
  obtain ⟨rest, rfl⟩ := starts
  cases rest with
  | nil => simp at room
  | cons c rest =>
    rw [List.set_append_right _ _ le_rfl, Nat.sub_self, List.set_cons_zero]
    exact ⟨rest, by simp⟩

/-- Copying up to and with the terminator copies the string. -/
theorem text_memcpy (dst : List Byte) {src line : List Byte} (nonzero : ∀ b ∈ line, b ≠ 0)
    (starts : line ++ [0] <+: src) : text (memcpy dst src (line.length + 1)) = line := by
  obtain ⟨rest, rfl⟩ := starts
  have size : (line ++ [0]).length = line.length + 1 := by simp
  rw [memcpy, List.take_append_of_le_length size.ge, ← size, List.take_length, List.append_assoc]
  exact text_append_nul nonzero

theorem set_append_drop {n : Nat} (first dst : List Byte) (filled : first.length = n)
    (fits : n < dst.length) :
    (first ++ dst.drop n).set n 0 = first ++ 0 :: dst.drop (n + 1) := by
  rw [List.set_append_right _ _ (by omega), filled, Nat.sub_self, List.drop_eq_getElem_cons fits,
    List.set_cons_zero]

/-- Writing over the byte behind a prefix. -/
theorem set_append_cons (first : List Byte) (old b : Byte) (rest : List Byte) :
    (first ++ old :: rest).set first.length b = first ++ b :: rest := by
  rw [List.set_append_right _ _ le_rfl, Nat.sub_self, List.set_cons_zero]

/-- The terminator that every caller of `strncpy` writes after it. -/
theorem text_strncpy_set {dst : List Byte} (src : List Byte) {n : Nat} (fits : n < dst.length) :
    text ((strncpy dst src n).set n 0) = (text src).take n := by
  have nonzero : ∀ b ∈ (text src).take n, b ≠ 0 := fun b hb =>
    ne_zero_of_mem_text (List.mem_of_mem_take hb)
  have filled : ((text src).take n ++ List.replicate (n - strlen src) 0).length = n := by
    simp only [strlen, List.length_append, List.length_take, List.length_replicate]
    omega
  rw [strncpy, set_append_drop _ _ filled fits, List.append_assoc]
  cases n - strlen src with
  | zero => exact text_append_nul nonzero
  | succ k => exact text_append_nul nonzero

/-- A copy of a string that ends inside the destination needs no terminator. -/
theorem text_strncpy {dst src : List Byte} {n : Nat} (short : strlen src < n) :
    text (strncpy dst src n) = text src := by
  have padding : n - strlen src = (n - strlen src - 1) + 1 := by omega
  rw [strncpy, List.take_of_length_le (show (text src).length ≤ n from short.le), padding,
    List.replicate_succ, List.append_assoc, List.cons_append]
  exact text_append_nul fun _ => ne_zero_of_mem_text

end CString

/-- `char mem[n]` -/
structure CharArray (n : Nat) where
  mem : List Byte
  length_mem : mem.length = n

namespace CharArray

variable {n : Nat}

def text (a : CharArray n) : List Byte := CString.text a.mem

/-- `strncpy(a, src, n - 1); a[n - 1] = 0;` -/
def copyCut (a : CharArray n) (src : List Byte) : CharArray n where
  mem := (CString.strncpy a.mem src (n - 1)).set (n - 1) 0
  length_mem := by
    rw [List.length_set, CString.length_strncpy _ _ (by rw [a.length_mem]; omega), a.length_mem]

def set (a : CharArray n) (i : Nat) (b : Byte) : CharArray n :=
  ⟨a.mem.set i b, by rw [List.length_set, a.length_mem]⟩

def memcpy (dst src : CharArray n) (count : Nat) : CharArray n :=
  ⟨CString.memcpy dst.mem src.mem count, by
    rw [CString.length_memcpy _ _ _ (src.length_mem.trans dst.length_mem.symm), dst.length_mem]⟩

/-- Bytes put at an offset, as far as they fit. -/
def overwrite (a : CharArray n) (off : Nat) (bytes : List Byte) : CharArray n where
  mem := (a.mem.take off ++ bytes ++ a.mem.drop (off + bytes.length)).take n
  length_mem := by
    have size := a.length_mem
    simp only [List.length_take, List.length_append, List.length_drop]
    omega

@[simp] theorem mem_set (a : CharArray n) (i : Nat) (b : Byte) :
    (a.set i b).mem = a.mem.set i b := rfl

theorem mem_overwrite (a : CharArray n) {off : Nat} {bytes : List Byte}
    (fits : off + bytes.length ≤ n) :
    (a.overwrite off bytes).mem = a.mem.take off ++ bytes ++ a.mem.drop (off + bytes.length) := by
  have size := a.length_mem
  refine List.take_of_length_le ?_
  simp only [List.length_take, List.length_append, List.length_drop]
  omega

theorem prefix_overwrite {a : CharArray n} {line : List Byte} (starts : line <+: a.mem)
    (bytes : List Byte) (fits : line.length + bytes.length ≤ n) :
    line ++ bytes <+: (a.overwrite line.length bytes).mem := by
  rw [mem_overwrite a fits, ← List.prefix_iff_eq_take.mp starts]
  exact List.prefix_append _ _

/-- The array ends in a NUL, so what it holds is a string inside it. -/
def Terminated (a : CharArray n) : Prop := a.mem.getLast? = some 0

theorem text_copyCut (a : CharArray n) (src : List Byte) (nonempty : 0 < n) :
    (a.copyCut src).text = (CString.text src).take (n - 1) :=
  CString.text_strncpy_set src (by rw [a.length_mem]; omega)

theorem copyCut_terminated (a : CharArray n) (src : List Byte) (nonempty : 0 < n) :
    (a.copyCut src).Terminated := by
  have size := (a.copyCut src).length_mem
  rw [Terminated, List.getLast?_eq_getElem?, size]
  have inside : n - 1 < (CString.strncpy a.mem src (n - 1)).length := by
    rw [CString.length_strncpy _ _ (by rw [a.length_mem]; omega), a.length_mem]
    omega
  exact List.getElem?_set_self inside

theorem Terminated.strlen_lt {a : CharArray n} (h : a.Terminated) : a.text.length < n := by
  have whole : a.text.length ≤ n :=
    (List.takeWhile_sublist _).length_le.trans a.length_mem.le
  rcases whole.lt_or_eq with short | full
  · exact short
  · have same : a.text = a.mem :=
      (List.takeWhile_prefix _).eq_of_length (by rw [a.length_mem]; exact full)
    rw [Terminated, ← same] at h
    exact absurd rfl (CString.ne_zero_of_mem_text (List.mem_of_getLast? h))

end CharArray

end MsxPulse.Library
