import Mathlib.Data.Nat.Digits.Defs
import MsxPulse.Library.CString

/-!
# `strtoul` of a 32-bit C library

Leading white space, a sign, for base 16 a `0x`, then digits up to the first other
character. Too large a value saturates. A numeral in the strict sense is a nonempty
list of digits and nothing else; on these the function is the positional value.
-/

namespace MsxPulse.Library.CString

def isSpace (c : Byte) : Bool := c == 32 || (9 ≤ c && c ≤ 13)

def toLower (c : Byte) : Byte := if 65 ≤ c && c ≤ 90 then c + 32 else c

def digitValue (c : Byte) : Option Nat :=
  if 48 ≤ c && c ≤ 57 then some (c.toNat - 48)
  else if 97 ≤ c && c ≤ 122 then some (c.toNat - 87)
  else if 65 ≤ c && c ≤ 90 then some (c.toNat - 55)
  else none

def digit (base : Nat) (c : Byte) : Option Nat := (digitValue c).filter (· < base)

/-- Accumulate digits up to the first character that is none. -/
def scanDigits (base acc : Nat) : List Byte → Nat
  | [] => acc
  | c :: rest =>
    match digit base c with
    | some d => scanDigits base (acc * base + d) rest
    | none => acc

def skipSign : List Byte → List Byte
  | [] => []
  | c :: rest => if c = 43 ∨ c = 45 then rest else c :: rest

def skipHexMark : List Byte → List Byte
  | c :: x :: rest => if c = 48 ∧ (x = 120 ∨ x = 88) then rest else c :: x :: rest
  | short => short

def strtoul (base : Nat) (s : List Byte) : BitVec 32 :=
  let s := s.dropWhile isSpace
  let negative := s.head? = some 45
  let s := skipSign s
  let s := if base = 16 then skipHexMark s else s
  let value := scanDigits base 0 s
  if 2 ^ 32 ≤ value then BitVec.allOnes 32
  else if negative then -BitVec.ofNat 32 value else BitVec.ofNat 32 value

/-- Nothing but digits, at least one. -/
structure Numeral (base : Nat) (s : List Byte) : Prop where
  nonempty : s ≠ []
  digits : ∀ c ∈ s, (digit base c).isSome

instance (base : Nat) (s : List Byte) : Decidable (Numeral base s) :=
  decidable_of_iff (s ≠ [] ∧ ∀ c ∈ s, (digit base c).isSome)
    ⟨fun h => ⟨h.1, h.2⟩, fun h => ⟨h.nonempty, h.digits⟩⟩

/-- The number that a numeral writes. -/
def numeralValue (base : Nat) (s : List Byte) : Nat :=
  Nat.ofDigits base (s.filterMap (digit base)).reverse

/-- White space, signs and the `x` of a hexadecimal mark are no digits. -/
theorem digit_eq_none_of_isSpace {base : Nat} {c : Byte} (space : isSpace c = true) :
    digit base c = none := by
  have none : digitValue c = none := by
    revert c
    decide
  rw [digit, none, Option.filter_none]

theorem digit_sign {base : Nat} {c : Byte} (sign : c = 43 ∨ c = 45) : digit base c = none := by
  rcases sign with rfl | rfl <;> rfl

theorem digit_mark {c : Byte} (mark : c = 120 ∨ c = 88) : digit 16 c = none := by
  rcases mark with rfl | rfl <;> rfl

theorem scanDigits_numeral {base : Nat} {s : List Byte}
    (digits : ∀ c ∈ s, (digit base c).isSome) (acc : Nat) :
    scanDigits base acc s = acc * base ^ s.length + numeralValue base s := by
  induction s generalizing acc with
  | nil => simp [scanDigits, numeralValue]
  | cons c rest ih =>
    obtain ⟨d, value⟩ := Option.isSome_iff_exists.mp (digits c List.mem_cons_self)
    have tail : ∀ c' ∈ rest, (digit base c').isSome := fun c' inside =>
      digits c' (List.mem_cons_of_mem _ inside)
    have count : (rest.filterMap (digit base)).length = rest.length :=
      List.filterMap_length_eq_length.mpr tail
    have lead : numeralValue base (c :: rest) = d * base ^ rest.length + numeralValue base rest := by
      rw [numeralValue, List.filterMap_cons_some value, List.reverse_cons, Nat.ofDigits_append,
        List.length_reverse, count, Nat.ofDigits_singleton, numeralValue]
      ring
    rw [scanDigits, value]
    show scanDigits base (acc * base + d) rest = _
    rw [ih tail, lead, List.length_cons, Nat.pow_succ]
    ring

theorem numeral_head {base : Nat} {s : List Byte} (h : Numeral base s) {c : Byte}
    (none : digit base c = none) : s.head? ≠ some c := by
  intro first
  have isDigit := h.digits c (List.mem_of_head? first)
  rw [none] at isDigit
  cases isDigit

theorem dropWhile_isSpace_numeral {base : Nat} {s : List Byte} (h : Numeral base s) :
    s.dropWhile isSpace = s := by
  cases s with
  | nil => rfl
  | cons c rest =>
    refine List.dropWhile_cons_of_neg fun space => ?_
    exact numeral_head h (digit_eq_none_of_isSpace space) rfl

theorem skipSign_numeral {base : Nat} {s : List Byte} (h : Numeral base s) : skipSign s = s := by
  cases s with
  | nil => rfl
  | cons c rest => exact if_neg fun sign => numeral_head h (digit_sign sign) rfl

theorem skipHexMark_numeral {s : List Byte} (h : Numeral 16 s) : skipHexMark s = s := by
  match s with
  | [] | [_] => rfl
  | c :: x :: rest =>
    refine if_neg fun mark => ?_
    have isDigit := h.digits x (by simp)
    rw [digit_mark mark.2] at isDigit
    cases isDigit

/-- On numerals that fit, the exact value. -/
theorem strtoul_numeral {base : Nat} {s : List Byte} (h : Numeral base s)
    (fits : numeralValue base s < 2 ^ 32) :
    strtoul base s = BitVec.ofNat 32 (numeralValue base s) := by
  have unmarked : (if base = 16 then skipHexMark s else s) = s := by
    split
    · next hex => exact skipHexMark_numeral (hex ▸ h)
    · rfl
  have value : scanDigits base 0 s = numeralValue base s := by
    rw [scanDigits_numeral h.digits, Nat.zero_mul, Nat.zero_add]
  have positive : s.head? ≠ some 45 := numeral_head h (digit_sign (.inr rfl))
  unfold strtoul
  simp only [dropWhile_isSpace_numeral h, skipSign_numeral h, unmarked, value]
  rw [if_neg (Nat.not_le_of_lt fits), if_neg positive]

/-! ## White space behind the text -/

theorem scanDigits_append_space {base : Nat} {tail : List Byte}
    (space : ∀ c ∈ tail, isSpace c = true) (acc : Nat) (s : List Byte) :
    scanDigits base acc (s ++ tail) = scanDigits base acc s := by
  induction s generalizing acc with
  | nil =>
    cases tail with
    | nil => rfl
    | cons c rest =>
      simp [scanDigits, digit_eq_none_of_isSpace (space c List.mem_cons_self)]
  | cons c rest ih =>
    rw [List.cons_append, scanDigits, scanDigits]
    cases digit base c with
    | none => rfl
    | some d => exact ih _

theorem skipSign_append {s : List Byte} (nonempty : s ≠ []) (tail : List Byte) :
    skipSign (s ++ tail) = skipSign s ++ tail := by
  cases s with
  | nil => exact absurd rfl nonempty
  | cons c rest =>
    rw [List.cons_append, skipSign, skipSign]
    split <;> rfl

theorem skipHexMark_append_space (s : List Byte) {tail : List Byte}
    (space : ∀ c ∈ tail, isSpace c = true) : skipHexMark (s ++ tail) = skipHexMark s ++ tail := by
  have unmarked (c : Byte) (h : isSpace c = true) : c ≠ 48 ∧ c ≠ 120 ∧ c ≠ 88 := by
    refine ⟨?_, ?_, ?_⟩ <;> rintro rfl <;> exact absurd h (by decide)
  match s, tail with
  | [], [] | [], [_] | [_], [] => rfl
  | [], c :: x :: rest =>
    exact if_neg fun mark => (unmarked c (space c List.mem_cons_self)).1 mark.1
  | [c], x :: rest =>
    have plain := unmarked x (space x List.mem_cons_self)
    exact if_neg fun mark => mark.2.elim plain.2.1 plain.2.2
  | c :: x :: rest, tail =>
    rw [List.cons_append, List.cons_append, skipHexMark, skipHexMark]
    split <;> rfl

/-- White space behind the text changes nothing. -/
theorem strtoul_append_space (base : Nat) (s : List Byte) {tail : List Byte}
    (space : ∀ c ∈ tail, isSpace c = true) : strtoul base (s ++ tail) = strtoul base s := by
  unfold strtoul
  by_cases blank : s.dropWhile isSpace = []
  · have all : (s ++ tail).dropWhile isSpace = [] := by
      rw [List.dropWhile_append, blank]
      simpa using space
    rw [blank, all]
  · have start : (s ++ tail).dropWhile isSpace = s.dropWhile isSpace ++ tail := by
      rw [List.dropWhile_append, if_neg (by simpa using blank)]
    have marked : (if base = 16 then skipHexMark (skipSign (s.dropWhile isSpace ++ tail))
          else skipSign (s.dropWhile isSpace ++ tail)) =
        (if base = 16 then skipHexMark (skipSign (s.dropWhile isSpace))
          else skipSign (s.dropWhile isSpace)) ++ tail := by
      rw [skipSign_append blank, skipHexMark_append_space _ space]
      split <;> rfl
    have sign : (s.dropWhile isSpace ++ tail).head? = (s.dropWhile isSpace).head? := by
      rw [List.head?_append]
      cases first : s.dropWhile isSpace with
      | nil => exact absurd first blank
      | cons c rest => rfl
    simp only [start, marked, sign, scanDigits_append_space space]

end MsxPulse.Library.CString
