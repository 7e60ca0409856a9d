import MsxPulse.Library.Format

/-!
# Printable texts of bounded length

What a formatted line is made of, with the most characters that each piece can take.
-/

namespace MsxPulse.Library.CString

/-- A printable text of at most `n` characters. -/
structure Sized (n : Nat) (l : List Byte) : Prop where
  printable : Printable l
  length : l.length ≤ n

variable {m n : Nat} {l l' : List Byte}

theorem Sized.le (h : Sized m l) (le : m ≤ n) : Sized n l :=
  ⟨h.printable, Nat.le_trans h.length le⟩

theorem Sized.append (h : Sized m l) (h' : Sized n l') : Sized (m + n) (l ++ l') where
  printable := h.printable.append h'.printable
  length := by
    rw [List.length_append]
    exact Nat.add_le_add h.length h'.length

theorem Sized.nil : Sized 0 [] := ⟨fun _ inside => absurd inside List.not_mem_nil, Nat.le_refl 0⟩

theorem Sized.flatMap {α : Type} {f : α → List Byte} {as : List α} (h : ∀ a ∈ as, Sized n (f a)) :
    Sized (n * as.length) (as.flatMap f) := by
  induction as with
  | nil => exact Sized.nil
  | cons a as ih =>
    have later := ih fun b inside => h b (List.mem_cons_of_mem a inside)
    rw [List.flatMap_cons, List.length_cons, Nat.mul_succ, Nat.add_comm]
    exact (h a List.mem_cons_self).append later

theorem sized_ascii {cs : List Char} (h : printableChars cs = true) :
    Sized cs.length (ascii (String.ofList cs)) :=
  ⟨printable_ascii h, Nat.le_of_eq (length_ascii rfl)⟩

theorem sized_literal {cs : List Char} (h : printableChars cs = true) (le : cs.length ≤ n) :
    Sized n (ascii (String.ofList cs)) := (sized_ascii h).le le

theorem sized_singleton {b : Byte} (h : blank ≤ b) : Sized 1 [b] where
  printable _ inside := List.mem_singleton.mp inside ▸ h
  length := Nat.le_refl 1

theorem Sized.ofFn {f : Fin n → Byte} (h : ∀ i, Sized 1 [f i]) : Sized n (List.ofFn f) where
  printable b inside := by
    obtain ⟨i, rfl⟩ := List.mem_ofFn.mp inside
    exact (h i).printable _ List.mem_cons_self
  length := Nat.le_of_eq List.length_ofFn

theorem sized_decimal {k : Nat} (positive : 0 < k) (small : n < 10 ^ k) : Sized k (decimal n) :=
  ⟨printable_decimal n, length_decimal_le positive small⟩

theorem sized_decimal16 (v : BitVec 16) : Sized 5 (decimal v.toNat) :=
  sized_decimal (by decide) (Nat.lt_trans v.isLt (by decide))

theorem sized_decimal32 (v : BitVec 32) : Sized 10 (decimal v.toNat) :=
  sized_decimal (by decide) (Nat.lt_trans v.isLt (by decide))

theorem sized_hex {width k : Nat} (positive : 0 < width) (le : width ≤ k) (small : n < 16 ^ k) :
    Sized k (hex width n) where
  printable := printable_hex width n
  length := by
    have digits : (Nat.toDigits 16 n).length ≤ k :=
      (Nat.length_toDigits_le_iff (by decide) (Nat.lt_of_lt_of_le positive le)).mpr small
    simp only [hex, List.length_append, List.length_replicate, List.length_map]
    omega

theorem sized_hex32 {width : Nat} (positive : 0 < width) (le : width ≤ 8) (v : BitVec 32) :
    Sized 8 (hex width v.toNat) := sized_hex positive le v.isLt

theorem sized_ite {c : Prop} [Decidable c] (h : Sized n l) (h' : Sized n l') :
    Sized n (if c then l else l') := by
  split
  · exact h
  · exact h'

end MsxPulse.Library.CString
