import MsxPulse.Firmware.BootDiag.ReportSize
import MsxPulse.Firmware.Ui.DiagPages

/-!
# The names on the page on bus and data

A row names the set bits of a mask, but it is cut twice: `append_bit_names` stops before its
buffer is full, and the row has a tag before the names. What is left names all bits, and no
other ones, if and only if the names have room behind the tag.
-/

namespace MsxPulse.Firmware.Ui

open Library Library.CString Oled BootDiagResult

/-- A row shows the name of a line: a letter and a number, ended by a blank or by the end. -/
def ShownName (row : List U8) (letter : U8) (k : Nat) : Prop :=
  ∃ front behind, row = front ++ letter :: (decimal k ++ behind) ∧
    (behind = [] ∨ behind.head? = some blank)

/-! ## Names between blanks -/

/-- The same list taken apart at two of its elements, neither of which comes later. -/
theorem append_cons_inj_last {xs ys ds es : List U8} {x y : U8} (hx : x ∉ es) (hy : y ∉ ds)
    (h : xs ++ x :: ds = ys ++ y :: es) : xs = ys ∧ x = y ∧ ds = es := by
  rcases List.append_eq_append_iff.mp h with ⟨mid, rfl, same⟩ | ⟨mid, rfl, same⟩
  · cases mid with
    | nil =>
      obtain ⟨rfl, rfl⟩ := List.cons.inj same
      exact ⟨(List.append_nil xs).symm, rfl, rfl⟩
    | cons z mid =>
      obtain ⟨-, rfl⟩ := List.cons.inj same
      exact absurd (List.mem_append_right mid List.mem_cons_self) hy
  · cases mid with
    | nil =>
      obtain ⟨rfl, rfl⟩ := List.cons.inj same
      exact ⟨List.append_nil ys, rfl, rfl⟩
    | cons z mid =>
      obtain ⟨-, rfl⟩ := List.cons.inj same
      exact absurd (List.mem_append_right mid List.mem_cons_self) hx

/-- Neither of which comes earlier. -/
theorem append_cons_inj_first {xs ys ds es : List U8} {x y : U8} (hx : x ∉ ys) (hy : y ∉ xs)
    (h : xs ++ x :: ds = ys ++ y :: es) : xs = ys ∧ x = y ∧ ds = es := by
  have reversed : ds.reverse ++ x :: xs.reverse = es.reverse ++ y :: ys.reverse := by
    simpa using congrArg List.reverse h
  obtain ⟨behind, same, front⟩ :=
    append_cons_inj_last (fun inside => hx (List.mem_reverse.mp inside))
      (fun inside => hy (List.mem_reverse.mp inside)) reversed
  exact ⟨List.reverse_injective front, same, List.reverse_injective behind⟩

theorem blank_not_digit : ¬Digit blank := by
  unfold Digit
  decide

theorem blank_notMem_name {letter : U8} (visible : letter ≠ blank) (k : Nat) :
    blank ∉ letter :: decimal k := by
  intro inside
  rcases List.mem_cons.mp inside with same | digit
  · exact visible same.symm
  · exact blank_not_digit (digit_decimal digit)

theorem shownName_plain {row : List U8} (plain : blank ∉ row) (letter : U8) (k : Nat) :
    ShownName row letter k ↔ letter :: decimal k <:+ row := by
  constructor
  · rintro ⟨front, behind, rfl, rfl | head⟩
    · exact ⟨front, by rw [List.append_nil]⟩
    · obtain ⟨rest, rfl⟩ := List.head?_eq_some_iff.mp head
      exact absurd (by simp) plain
  · rintro ⟨front, rfl⟩
    exact ⟨front, [], by rw [List.append_nil], .inl rfl⟩

/-- A blank ends the name before it, and further names are behind it. -/
theorem shownName_blank {word : List U8} (plain : blank ∉ word) {letter : U8}
    (visible : letter ≠ blank) (rest : List U8) (k : Nat) :
    ShownName (word ++ blank :: rest) letter k ↔
      letter :: decimal k <:+ word ∨ ShownName rest letter k := by
  constructor
  · rintro ⟨front, behind, split, ended⟩
    rcases List.append_eq_append_iff.mp split with ⟨mid, rfl, same⟩ | ⟨mid, rfl, same⟩
    · cases mid with
      | nil => exact absurd (List.cons.inj same).1.symm visible
      | cons c mid =>
        obtain ⟨-, rfl⟩ := List.cons.inj same
        exact .inr ⟨mid, behind, rfl, ended⟩
    · have unbroken : blank ∉ mid := fun inside => plain (List.mem_append_right front inside)
      have name := blank_notMem_name visible k
      rcases ended with rfl | head
      · rw [List.append_nil] at same
        exact absurd (same ▸ List.mem_append_right mid List.mem_cons_self) name
      · obtain ⟨more, rfl⟩ := List.head?_eq_some_iff.mp head
        rw [← List.cons_append] at same
        obtain ⟨rfl, -, -⟩ := append_cons_inj_first unbroken name same
        exact .inl (List.suffix_append front _)
  · rintro (⟨front, rfl⟩ | ⟨front, behind, rfl, ended⟩)
    · exact ⟨front, blank :: rest, by simp, .inr rfl⟩
    · exact ⟨word ++ blank :: front, behind, by simp, ended⟩

/-- The names of lines, each with a blank behind it. -/
def names (letter : U8) (ks : List Nat) : List U8 :=
  (ks.map fun k => letter :: decimal k ++ ascii " ").flatten

@[simp] theorem names_nil (letter : U8) : names letter [] = [] := rfl

theorem names_cons (letter : U8) (k : Nat) (ks : List Nat) :
    names letter (k :: ks) = letter :: decimal k ++ blank :: names letter ks := by
  rw [names, List.map_cons, List.flatten_cons, List.append_assoc]
  rfl

theorem names_append (letter : U8) (ks more : List Nat) :
    names letter (ks ++ more) = names letter ks ++ names letter more := by
  rw [names, List.map_append, List.flatten_append]
  rfl

theorem names_concat (letter : U8) (ks : List Nat) (k : Nat) :
    names letter (ks ++ [k]) = names letter ks ++ letter :: decimal k ++ [blank] := by
  rw [names_append, names_cons, names_nil, List.append_cons _ blank, List.append_nil]
  exact (List.append_assoc _ _ _).symm

/-- What a cut leaves of a name. -/
def Cut (letter : U8) (rest : List U8) : Prop :=
  rest = [] ∨ ∃ ds : List U8, (∀ c ∈ ds, Digit c) ∧ rest = letter :: ds

/-- A letter and digits end in a name if and only if they are one. -/
theorem name_suffix_iff {front ds : List U8} {letter l : U8} (hl : ¬Digit l) (hletter : ¬Digit letter)
    (digits : ∀ c ∈ ds, Digit c) (k : Nat) :
    l :: decimal k <:+ front ++ letter :: ds ↔ l = letter ∧ decimal k = ds := by
  constructor
  · rintro ⟨before, same⟩
    obtain ⟨-, letters, numbers⟩ := append_cons_inj_last (fun inside => hl (digits l inside))
      (fun inside => hletter (digit_decimal inside)) same
    exact ⟨letters, numbers⟩
  · rintro ⟨rfl, rfl⟩
    exact List.suffix_append front _

/-- The names shown behind a tag are those written out, and that of a cut name if the digits that
are left make one. -/
theorem shownName_iff {tag rest : List U8} {letter l : U8} (bare : ∀ k, ¬l :: decimal k <:+ tag)
    (plain : blank ∉ tag) (hl : ¬Digit l) (hletter : ¬Digit letter) (visible : l ≠ blank)
    (spelt : letter ≠ blank) (cut : Cut letter rest) (ks : List Nat) (k : Nat) :
    ShownName (tag ++ (names letter ks ++ rest)) l k ↔
      l = letter ∧ (k ∈ ks ∨ rest = letter :: decimal k) := by
  induction ks generalizing tag with
  | nil =>
    rw [names_nil, List.nil_append]
    rcases cut with rfl | ⟨ds, digits, rfl⟩
    · rw [List.append_nil, shownName_plain plain]
      simp [bare k]
    · have unbroken : blank ∉ tag ++ letter :: ds := by
        intro inside
        rcases List.mem_append.mp inside with early | late
        · exact plain early
        · rcases List.mem_cons.mp late with same | digit
          · exact spelt same.symm
          · exact blank_not_digit (digits blank digit)
      rw [shownName_plain unbroken, name_suffix_iff hl hletter digits]
      simp [eq_comm]
  | cons i ks ih =>
    have unbroken : blank ∉ tag ++ letter :: decimal i := by
      intro inside
      exact (List.mem_append.mp inside).elim plain (blank_notMem_name spelt i)
    have nothing : ∀ k, ¬l :: decimal k <:+ [] := fun k => by simp
    have further := ih nothing List.not_mem_nil
    rw [List.nil_append] at further
    rw [names_cons, List.append_assoc, ← List.append_assoc tag, List.cons_append,
      shownName_blank unbroken visible, name_suffix_iff hl hletter (fun c => digit_decimal), further,
      ← and_or_left, List.mem_cons, or_assoc]
    exact and_congr_right fun _ => or_congr_left ⟨decimal_injective, congrArg decimal⟩

/-- What a cut leaves of names. -/
theorem exists_of_prefix {letter : U8} {ks : List Nat} {q : List U8} (h : q <+: names letter ks) :
    ∃ shown behind rest, ks = shown ++ behind ∧ q = names letter shown ++ rest ∧
      (rest = [] ∨ ∃ i more, behind = i :: more ∧ rest <+: letter :: decimal i) := by
  induction ks generalizing q with
  | nil => exact ⟨[], [], [], rfl, List.eq_nil_of_prefix_nil h, .inl rfl⟩
  | cons i ks ih =>
    rw [names_cons, List.append_cons] at h
    rcases List.prefix_or_prefix_of_prefix h (List.prefix_append _ _) with short | ⟨q, rfl⟩
    · rcases List.prefix_concat_iff.mp short with rfl | inside
      · exact ⟨[i], ks, [], rfl, by rw [names_cons, names_nil, List.append_nil], .inl rfl⟩
      · exact ⟨[], i :: ks, q, rfl, rfl, .inr ⟨i, ks, rfl, inside⟩⟩
    · obtain ⟨shown, behind, rest, rfl, rfl, cut⟩ := ih ((List.prefix_append_right_inj _).mp h)
      refine ⟨i :: shown, behind, rest, rfl, ?_, cut⟩
      rw [names_cons, List.append_cons _ blank (names letter shown)]
      exact (List.append_assoc _ _ _).symm

theorem length_name_pos (letter : U8) (k : Nat) : 2 ≤ (letter :: decimal k).length := by
  have digits := List.length_pos_iff.mpr (decimal_ne_nil k)
  rw [List.length_cons]
  omega

/-! ## What a row shows -/

/-- What stands before the names of a row. -/
structure Tag (tag : List U8) : Prop where
  colon : ∃ t, tag = t ++ [58]
  plain : blank ∉ tag
  size : 4 ≤ tag.length ∧ tag.length ≤ 21

/-- A tag does not end in a name. -/
theorem Tag.bare {tag : List U8} (h : Tag tag) (l : U8) (k : Nat) : ¬l :: decimal k <:+ tag := by
  rintro ⟨before, split⟩
  obtain ⟨t, rfl⟩ := h.colon
  obtain ⟨ds, d, last⟩ : ∃ ds d, decimal k = ds ++ [d] :=
    (List.eq_nil_or_concat' (decimal k)).resolve_left (decimal_ne_nil k)
  have digit : Digit d := digit_decimal (n := k) (by simp [last])
  rw [last, ← List.cons_append, ← List.append_assoc] at split
  obtain ⟨-, same⟩ := List.append_inj' split rfl
  obtain rfl := List.singleton_inj.mp same
  unfold Digit at digit
  exact absurd digit (by decide)

/-- The letter of a name. -/
def Letter (l : U8) : Prop := l = byteOf 'D' ∨ l = byteOf 'A'

theorem Letter.not_digit {l : U8} (h : Letter l) : ¬Digit l := by
  unfold Digit
  rcases h with rfl | rfl <;> decide

theorem Letter.visible {l : U8} (h : Letter l) : l ≠ blank := by
  rcases h with rfl | rfl <;> decide

section Row

variable {tag : List U8} (htag : Tag tag) {letter : U8} (hletter : Letter letter) {ks added : List Nat}

/-- The text of a row: the names behind the tag, as far as they fit. -/
theorem row_eq (h : tag.length ≤ 21) (s : List U8) :
    (tag ++ s).take 21 = tag ++ s.take (21 - tag.length) := by
  rw [List.take_append, List.take_of_length_le h]

include htag hletter in
theorem shown_of_fits (listed : added <+: ks) (full : added = ks ∨ 18 ≤ (names letter added).length)
    (fits : (names letter ks).length + tag.length ≤ 22) {l : U8} (hl : Letter l) (k : Nat) :
    ShownName ((tag ++ names letter added).take 21) l k ↔ l = letter ∧ k ∈ ks := by
  obtain ⟨long, short⟩ := htag.size
  have shown {rest : List U8} (cut : Cut letter rest) (ks : List Nat) :=
    shownName_iff (htag.bare l) htag.plain hl.not_digit hletter.not_digit hl.visible hletter.visible cut
      ks k
  have all : added = ks := by
    obtain ⟨more, rfl⟩ := listed
    rcases full with all | full
    · exact all
    · cases more with
      | nil => exact (List.append_nil added).symm
      | cons i more =>
        have name := length_name_pos letter i
        rw [names_append, names_cons, List.length_append, List.length_append, List.length_cons] at fits
        omega
  subst all
  rw [row_eq short]
  rcases Nat.lt_or_ge (21 - tag.length) (names letter added).length with beyond | whole
  · -- The blank behind the last name is cut off.
    rcases List.eq_nil_or_concat' added with rfl | ⟨init, last, rfl⟩
    · exact absurd beyond (Nat.not_lt_zero _)
    · rw [names_concat, List.length_append, List.length_singleton] at fits beyond
      rw [names_concat, List.take_left' (by omega), shown (.inr ⟨decimal last, fun c => digit_decimal, rfl⟩),
        List.mem_append, List.mem_singleton, List.cons.injEq]
      exact and_congr_right fun _ => or_congr_right
        ⟨fun same => (decimal_injective same.2).symm, fun same => ⟨rfl, congrArg decimal same.symm⟩⟩
  · have whole_names := shown (.inl rfl) added
    rw [List.append_nil] at whole_names
    rw [List.take_of_length_le whole, whole_names]
    simp

/-- The name of a line is not the start of that of a line before it. -/
theorem le_of_decimal_start : ∀ k < 16, ∀ i < 16, decimal k <+: decimal i → k ≤ i := by
  decide

include htag hletter in
theorem fits_of_shown (sorted : ks.Pairwise (· < ·)) (small : ∀ k ∈ ks, k < 16) (listed : added <+: ks)
    (shown : ∀ k ∈ ks, ShownName ((tag ++ names letter added).take 21) letter k) :
    (names letter ks).length + tag.length ≤ 22 := by
  obtain ⟨long, short⟩ := htag.size
  rcases List.eq_nil_or_concat' ks with rfl | ⟨init, last, rfl⟩
  · rw [names_nil, List.length_nil]
    omega
  have largest : ∀ i ∈ init ++ [last], i ≤ last := by
    intro i member
    rcases List.mem_append.mp member with early | same
    · exact ((List.pairwise_append.mp sorted).2.2 i early last (List.mem_singleton_self last)).le
    · exact (List.mem_singleton.mp same).le
  have here := shown last (List.mem_append_right _ (List.mem_singleton_self last))
  rw [row_eq short] at here
  obtain ⟨more, all⟩ := listed
  have size := List.length_take_le (21 - tag.length) (names letter added)
  have start : (names letter added).take (21 - tag.length) <+: names letter (init ++ [last]) := by
    rw [← all, names_append]
    exact (List.take_prefix _ _).trans (List.prefix_append _ _)
  obtain ⟨first, behind, rest, split, q, cut⟩ := exists_of_prefix start
  rw [q] at here size
  rw [List.length_append] at size
  have remains : Cut letter rest := by
    rcases cut with none | ⟨i, _, -, part⟩
    · exact .inl none
    · cases rest with
      | nil => exact .inl rfl
      | cons c ds =>
        obtain ⟨rfl, digits⟩ := List.cons_prefix_cons.mp part
        exact .inr ⟨ds, fun d inside => digit_decimal (digits.subset inside), rfl⟩
  obtain ⟨-, named⟩ := (shownName_iff (htag.bare letter) htag.plain hletter.not_digit hletter.not_digit
    hletter.visible hletter.visible remains first last).mp here
  rw [split] at sorted small largest ⊢
  obtain ⟨-, ordered, across⟩ := List.pairwise_append.mp sorted
  rcases named with early | late
  · -- The last name is written out, so all names are.
    have none : behind = [] := by
      refine List.eq_nil_iff_forall_not_mem.mpr fun i member => ?_
      exact Nat.not_lt_of_le (largest i (List.mem_append_right _ member)) (across last early i member)
    rw [none, List.append_nil]
    omega
  · -- What is left of a cut name is the last name, so it is cut behind its digits.
    rcases cut with none | ⟨i, more, rfl, part⟩
    · exact absurd (none.symm.trans late) (List.cons_ne_nil _ _).symm
    · have member : i ∈ first ++ i :: more := List.mem_append_right _ List.mem_cons_self
      have digits := (List.cons_prefix_cons.mp (late ▸ part)).2
      have same : i = last := Nat.le_antisymm (largest i member)
        (le_of_decimal_start last (small last (by simp [← split])) i (small i member) digits)
      have none : more = [] := by
        refine List.eq_nil_iff_forall_not_mem.mpr fun z later => ?_
        have above := (List.pairwise_cons.mp ordered).1 z later
        exact Nat.not_lt_of_le (largest z (List.mem_append_right _ (List.mem_cons_of_mem _ later)))
          (same ▸ above)
      rw [none, names_concat, List.length_append, List.length_append, same, ← late,
        List.length_singleton]
      omega

end Row

/-! ## What `append_bit_names` leaves -/

/-- The buffer has the names of the first of the bits, of all of them or of as many as leave no
room for a further one. -/
structure Named (out : List U8) (letter : U8) (ks added : List Nat) (b : PrintBuf) : Prop where
  wrote : b.Wrote out (names letter added)
  room : (names letter added).length < out.length
  listed : added <+: ks
  full : added = ks ∨ out.length ≤ (names letter added).length + 4

theorem bits_succ (mask : U32) (n : Nat) :
    bits mask (n + 1) = bits mask n ++ if bitSet mask n then [n] else [] := by
  rw [bits, List.range_succ, List.filter_append, List.filter_cons, List.filter_nil]
  rfl

/-- A print that fits is that of `appendf`. -/
theorem appendf_of_fits {b : PrintBuf} {piece : List U8} (fits : b.off + piece.length < b.mem.length) :
    b.appendf piece =
      ⟨vsnprintf b.mem b.off (b.mem.length - b.off) piece, b.off + piece.length⟩ := by
  unfold PrintBuf.appendf
  rw [if_neg (by omega)]
  simp only [if_neg (Nat.not_le_of_lt fits)]

theorem bitName_step {out : List U8} {letter : U8} {mask : U32} {n : Nat} (inside : n < 16)
    {added : List Nat} {b : PrintBuf} (h : Named out letter (bits mask n) added b) :
    ∃ added, Named out letter (bits mask (n + 1)) added (bitName letter mask b n) := by
  have some : 0 < out.length := Nat.zero_lt_of_lt h.room
  have size := h.wrote.length_mem some
  have off : b.off = (names letter added).length := by
    have room := h.room
    rw [h.wrote.off]
    omega
  have piece : letter :: decimal n ++ ascii " " = names letter [n] := by
    rw [names_cons]
    rfl
  have short : (names letter [n]).length ≤ 4 := by
    have digits := length_decimal_le (n := n) (k := 2) (by decide) (by omega)
    rw [names_cons, names_nil, List.length_append, List.length_cons, List.length_singleton]
    omega
  rw [bits_succ]
  unfold bitName
  rw [size, off, piece]
  by_cases bit : bitSet mask n = true
  · rw [if_pos bit]
    by_cases room : (names letter added).length + 4 < out.length
    · obtain rfl : added = bits mask n := h.full.resolve_right (by omega)
      have fits : b.off + (names letter [n]).length < b.mem.length := by omega
      have printed := h.wrote.appendf some (names letter [n])
      rw [appendf_of_fits fits, size, off, ← names_append] at printed
      rw [if_pos ⟨room, bit⟩]
      refine ⟨bits mask n ++ [n], printed, ?_, List.prefix_refl _, .inl rfl⟩
      rw [names_append, List.length_append]
      omega
    · rw [if_neg fun both => room both.1]
      exact ⟨added, h.wrote, h.room, h.listed.trans (List.prefix_append _ _), .inr (by omega)⟩
  · rw [if_neg bit, if_neg fun both => bit both.2, List.append_nil]
    exact ⟨added, h⟩

theorem appendBitNames_named {out : List U8} (some : 0 < out.length) (letter : U8) (mask : U32)
    {nbits : Nat} (inside : nbits ≤ 16) :
    ∃ added b, Named out letter (bits mask nbits) added b ∧
      appendBitNames out letter mask nbits = b.mem := by
  have run : ∀ n ≤ 16, ∃ added, Named out letter (bits mask n) added
      ((List.range n).foldl (bitName letter mask) ⟨out.set 0 0, 0⟩) := by
    intro n
    induction n with
    | zero =>
      intro _
      exact ⟨[], PrintBuf.wrote_nil some, some, List.nil_prefix, .inl rfl⟩
    | succ n ih =>
      intro inside
      obtain ⟨added, named⟩ := ih (Nat.le_of_succ_le inside)
      rw [List.range_succ, List.foldl_append]
      exact bitName_step inside named
  obtain ⟨added, named⟩ := run nbits inside
  exact ⟨added, _, named, rfl⟩

theorem printable_names {letter : U8} (h : Letter letter) (ks : List Nat) :
    Printable (names letter ks) := by
  have visible : Printable [letter] := by
    refine List.forall_mem_singleton.mpr ?_
    rcases h with rfl | rfl <;> decide
  refine .flatten (List.forall_mem_map.mpr fun k _ => ?_)
  exact (visible.append (printable_decimal k)).append (printable_ascii rfl)

theorem text_appendBitNames {out : List U8} (size : out.length = 22) {letter : U8} (h : Letter letter)
    (mask : U32) {nbits : Nat} (inside : nbits ≤ 16) :
    ∃ added, text (appendBitNames out letter mask nbits) = names letter added ∧
      added <+: bits mask nbits ∧
      (added = bits mask nbits ∨ 18 ≤ (names letter added).length) := by
  have some : 0 < out.length := by omega
  obtain ⟨added, b, named, mem⟩ := appendBitNames_named some letter mask inside
  have room := named.room
  refine ⟨added, ?_, named.listed, named.full.imp_right fun full => by omega⟩
  rw [mem, (named.wrote.holdsPrefix some (printable_names h added).nonzero).text]
  exact List.take_of_length_le (by omega)

theorem length_appendBitNames {out : List U8} (size : out.length = 22) (letter : U8) (mask : U32)
    {nbits : Nat} (inside : nbits ≤ 16) : (appendBitNames out letter mask nbits).length = 22 := by
  have some : 0 < out.length := by omega
  obtain ⟨added, b, named, mem⟩ := appendBitNames_named some letter mask inside
  rw [mem, named.wrote.length_mem some, size]

/-! ## The page -/

/-- The rows that begin with the tag of a mask name its bits, all of them and no other line. -/
structure NamesStuck {w : Nat} (rows : List (List U8)) (tag : List U8) (letter : U8)
    (mask : BitVec w) : Prop where
  sound : ∀ row ∈ rows, tag <+: row → ∀ l, Letter l → ∀ k, ShownName row l k →
    l = letter ∧ bitSet mask k = true
  complete : ∀ k, bitSet mask k = true → ∃ row ∈ rows, tag <+: row ∧ ShownName row letter k

theorem mem_bits_iff {w : Nat} (narrow : w ≤ 32) (mask : BitVec w) (k : Nat) :
    k ∈ bits (mask.setWidth 32) w ↔ bitSet mask k = true := by
  rw [bits, List.mem_filter, List.mem_range, bitSet_eq_getLsbD, bitSet_eq_getLsbD,
    BitVec.getLsbD_setWidth]
  constructor
  · rintro ⟨inside, bit⟩
    exact (Bool.and_eq_true_iff.mp bit).2
  · intro bit
    have inside := BitVec.lt_of_getLsbD bit
    exact ⟨inside, by rw [bit, decide_eq_true (by omega)]; rfl⟩

variable {l : Locals} {r : BootDiagResult}

/-- One mask: its row names its bits if and only if their names have room. -/
theorem namesStuck_iff {w : Nat} (narrow : w ≤ 16) {mask : BitVec w} {rows : List (List U8)}
    {tag : List U8} (htag : Tag tag) (printable : Printable tag) {letter : U8} (hletter : Letter letter)
    {out : List U8} (size : out.length = 22)
    (only : ∀ row, row ∈ rows ∧ tag <+: row ↔
      mask ≠ 0 ∧ row = l.row (tag ++ text (appendBitNames out letter (mask.setWidth 32) w))) :
    NamesStuck rows tag letter mask ↔ bitsSize (mask.setWidth 32) w + tag.length ≤ 22 := by
  have named := mem_bits_iff (show w ≤ 32 by omega) mask
  have length : (names letter (bits (mask.setWidth 32) w)).length = bitsSize (mask.setWidth 32) w :=
    length_bitHint (show [letter].length = 1 from rfl) narrow
  obtain ⟨added, text, listed, full⟩ :=
    text_appendBitNames size hletter (mask.setWidth 32) narrow
  rw [text, l.row_eq (printable.append (printable_names hletter added)).nonzero] at only
  constructor
  · intro h
    rw [← length]
    have sorted : (bits (mask.setWidth 32) w).Pairwise (· < ·) := List.pairwise_lt_range.filter _
    apply fits_of_shown htag hletter sorted (fun k member => (lt_of_mem_bits member).trans_le narrow)
      listed
    intro k member
    obtain ⟨row, here, tagged, shown⟩ := h.complete k ((named k).mp member)
    rw [((only row).mp ⟨here, tagged⟩).2] at shown
    exact shown
  · intro fits
    rw [← length] at fits
    refine ⟨fun row here tagged l hl k shown => ?_, fun k bit => ?_⟩
    · rw [((only row).mp ⟨here, tagged⟩).2] at shown
      obtain ⟨same, member⟩ := (shown_of_fits htag hletter listed full fits hl k).mp shown
      exact ⟨same, (named k).mp member⟩
    · have some : mask ≠ 0 := by
        rintro rfl
        simp at bit
      obtain ⟨here, tagged⟩ := (only _).mpr ⟨some, rfl⟩
      exact ⟨_, here, tagged,
        (shown_of_fits htag hletter listed full fits hletter k).mpr ⟨rfl, (named k).mpr bit⟩⟩

theorem length_bufHi (l : Locals) (r : BootDiagResult) : (bufHi l r).length = 22 := by
  unfold bufHi
  split
  · exact l.buf.length_mem
  · exact length_appendBitNames l.buf.length_mem _ _ (by decide)

theorem length_bufLo (l : Locals) (r : BootDiagResult) : (bufLo l r).length = 22 := by
  unfold bufLo
  split
  · exact length_bufHi l r
  · exact length_appendBitNames (length_bufHi l r) _ _ (by decide)

/-- The rows of the page. -/
def busTexts (l : Locals) (r : BootDiagResult) : List (List U8) := (renderDiagBus l r).map Puts.text

/-- The first two characters of a row tell its kind. -/
theorem take_two_row {tag : List U8} (long : 2 ≤ tag.length) (printable : Printable tag)
    {behind : List U8} (nonzero : ∀ b ∈ behind, b ≠ 0) :
    (l.row (tag ++ behind)).take 2 = tag.take 2 := by
  rw [l.row_eq (nonzero_append printable.nonzero nonzero), List.take_take, show min 2 21 = 2 from rfl,
    List.take_append_of_le_length long]

theorem take_two_of_tag {tag row : List U8} (long : 2 ≤ tag.length) (h : tag <+: row) :
    row.take 2 = tag.take 2 := by
  obtain ⟨rest, rfl⟩ := h
  exact List.take_append_of_le_length long

theorem mem_busRows {row : List U8} : row ∈ busRows l r ↔
    (((((r.stuckDataHi ≠ 0 ∧ row = l.row (ascii "Dhi:" ++ text (bufHi l r))) ∨
      r.stuckDataLo ≠ 0 ∧ row = l.row (ascii "Dlo:" ++ text (bufLo l r))) ∨
      r.stuckAddrMask ≠ 0 ∧ row = l.row (ascii "Astk:" ++ text (bufAddr l r))) ∨
      r.busUndriven = true ∧ row = ascii "bus not driven") ∨
      r.cpFailed ≠ 0 ∧ row = l.row (ascii "opcode fail 0x" ++ hex 2 r.cpFailed.toNat)) := by
  simp only [busRows, List.mem_append, List.mem_ite_nil_left, List.mem_ite_nil_right,
    List.mem_singleton, ne_eq]

theorem busTexts_cases {row : List U8} (h : row ∈ busTexts l r) :
    (r.stuckDataHi ≠ 0 ∧ row = l.row (ascii "Dhi:" ++ text (bufHi l r))) ∨
      (r.stuckDataLo ≠ 0 ∧ row = l.row (ascii "Dlo:" ++ text (bufLo l r))) ∨
      (r.stuckAddrMask ≠ 0 ∧ row = l.row (ascii "Astk:" ++ text (bufAddr l r))) ∨
      row.take 2 ∈ [ascii "bu", ascii "op", ascii "Bu"] := by
  unfold busTexts renderDiagBus at h
  split at h
  · rw [place_texts] at h
    rcases mem_busRows.mp h with (((hi | lo) | addr) | ⟨-, rfl⟩) | ⟨-, rfl⟩
    · exact .inl hi
    · exact .inr (.inl lo)
    · exact .inr (.inr (.inl addr))
    · exact .inr (.inr (.inr (by decide)))
    · rw [take_two_row (by decide) (printable_ascii rfl) (printable_hex _ _).nonzero]
      exact .inr (.inr (.inr (by decide)))
  · rw [List.map_cons, List.mem_cons] at h
    rcases h with rfl | verified
    · exact .inr (.inr (.inr (by decide)))
    · split at verified
      · exact absurd verified List.not_mem_nil
      · rw [List.map_singleton, List.mem_singleton] at verified
        rw [verified]
        exact .inr (.inr (.inr (by decide)))

theorem busTexts_of_issue {row : List U8} (issue : busIssue r = true) (h : row ∈ busRows l r) :
    row ∈ busTexts l r := by
  rw [busTexts, renderDiagBus, if_pos issue, place_texts]
  exact h

/-- The tag of a row is in front of it. -/
theorem tag_prefix {tag : List U8} (htag : Tag tag) (printable : Printable tag) {behind : List U8}
    (nonzero : ∀ b ∈ behind, b ≠ 0) : tag <+: l.row (tag ++ behind) := by
  rw [l.row_eq (nonzero_append printable.nonzero nonzero), row_eq htag.size.2]
  exact List.prefix_append _ _

theorem tag_dhi : Tag (ascii "Dhi:") := ⟨⟨ascii "Dhi", rfl⟩, by decide, by decide⟩
theorem tag_dlo : Tag (ascii "Dlo:") := ⟨⟨ascii "Dlo", rfl⟩, by decide, by decide⟩
theorem tag_astk : Tag (ascii "Astk:") := ⟨⟨ascii "Astk", rfl⟩, by decide, by decide⟩

/-- A tag belongs to one row, that of its mask. -/
theorem only_of {tag row : List U8} {c : Prop} (long : 2 ≤ tag.length)
    (present : c → row ∈ busTexts l r ∧ tag <+: row)
    (start : ∀ other ∈ busTexts l r, other.take 2 = tag.take 2 → c ∧ other = row) (other : List U8) :
    other ∈ busTexts l r ∧ tag <+: other ↔ c ∧ other = row := by
  constructor
  · rintro ⟨here, tagged⟩
    exact start other here (take_two_of_tag long tagged)
  · rintro ⟨some, rfl⟩
    exact present some

/-- A row with another tag begins otherwise. -/
theorem other_tag {tag other buf : List U8} (long : 2 ≤ other.length) (printable : Printable other)
    (differ : other.take 2 ≠ tag.take 2) : (l.row (other ++ text buf)).take 2 ≠ tag.take 2 := by
  rw [take_two_row long printable fun _ => ne_zero_of_mem_text]
  exact differ

theorem busIssue_iff : busIssue r = true ↔ r.stuckDataHi ≠ 0 ∨ r.stuckDataLo ≠ 0 ∨
    r.stuckAddrMask ≠ 0 ∨ r.busUndriven = true ∨ r.cpFailed ≠ 0 := by
  simp [busIssue, or_assoc]

theorem only_hi (row : List U8) : row ∈ busTexts l r ∧ ascii "Dhi:" <+: row ↔
    r.stuckDataHi ≠ 0 ∧ row = l.row (ascii "Dhi:" ++ text (bufHi l r)) := by
  refine only_of (by decide) (fun some => ⟨?_, ?_⟩) (fun other here start => ?_) row
  · apply busTexts_of_issue (busIssue_iff.mpr (.inl some))
    exact mem_busRows.mpr (.inl (.inl (.inl (.inl ⟨some, rfl⟩))))
  · exact tag_prefix tag_dhi (printable_ascii rfl) fun _ => ne_zero_of_mem_text
  · rcases busTexts_cases here with hi | ⟨-, rfl⟩ | ⟨-, rfl⟩ | kind
    · exact hi
    · exact absurd start (other_tag (by decide) (printable_ascii rfl) (by decide))
    · exact absurd start (other_tag (by decide) (printable_ascii rfl) (by decide))
    · rw [start] at kind
      exact absurd kind (by decide)

theorem only_lo (row : List U8) : row ∈ busTexts l r ∧ ascii "Dlo:" <+: row ↔
    r.stuckDataLo ≠ 0 ∧ row = l.row (ascii "Dlo:" ++ text (bufLo l r)) := by
  refine only_of (by decide) (fun some => ⟨?_, ?_⟩) (fun other here start => ?_) row
  · apply busTexts_of_issue (busIssue_iff.mpr (.inr (.inl some)))
    exact mem_busRows.mpr (.inl (.inl (.inl (.inr ⟨some, rfl⟩))))
  · exact tag_prefix tag_dlo (printable_ascii rfl) fun _ => ne_zero_of_mem_text
  · rcases busTexts_cases here with ⟨-, rfl⟩ | lo | ⟨-, rfl⟩ | kind
    · exact absurd start (other_tag (by decide) (printable_ascii rfl) (by decide))
    · exact lo
    · exact absurd start (other_tag (by decide) (printable_ascii rfl) (by decide))
    · rw [start] at kind
      exact absurd kind (by decide)

theorem only_addr (row : List U8) : row ∈ busTexts l r ∧ ascii "Astk:" <+: row ↔
    r.stuckAddrMask ≠ 0 ∧ row = l.row (ascii "Astk:" ++ text (bufAddr l r)) := by
  refine only_of (by decide) (fun some => ⟨?_, ?_⟩) (fun other here start => ?_) row
  · apply busTexts_of_issue (busIssue_iff.mpr (.inr (.inr (.inl some))))
    exact mem_busRows.mpr (.inl (.inl (.inr ⟨some, rfl⟩)))
  · exact tag_prefix tag_astk (printable_ascii rfl) fun _ => ne_zero_of_mem_text
  · rcases busTexts_cases here with ⟨-, rfl⟩ | ⟨-, rfl⟩ | addr | kind
    · exact absurd start (other_tag (by decide) (printable_ascii rfl) (by decide))
    · exact absurd start (other_tag (by decide) (printable_ascii rfl) (by decide))
    · exact addr
    · rw [start] at kind
      exact absurd kind (by decide)

/-- The page names just the stuck lines if and only if the names of each mask have room behind
its tag: 18 characters for those of the data lines, 17 for those of the address lines. -/
theorem renderDiagBus_names_iff (l : Locals) (r : BootDiagResult) :
    (NamesStuck (busTexts l r) (ascii "Dhi:") (byteOf 'D') r.stuckDataHi ∧
        NamesStuck (busTexts l r) (ascii "Dlo:") (byteOf 'D') r.stuckDataLo ∧
        NamesStuck (busTexts l r) (ascii "Astk:") (byteOf 'A') r.stuckAddrMask) ↔
      bitsSize (r.stuckDataHi.setWidth 32) 8 ≤ 18 ∧ bitsSize (r.stuckDataLo.setWidth 32) 8 ≤ 18 ∧
        bitsSize (r.stuckAddrMask.setWidth 32) 16 ≤ 17 := by
  have hi := namesStuck_iff (by decide) tag_dhi (printable_ascii rfl) (.inl rfl) l.buf.length_mem
    fun row => (only_hi (r := r) row).trans (and_congr_right fun some => by rw [bufHi, if_neg some])
  have lo := namesStuck_iff (by decide) tag_dlo (printable_ascii rfl) (.inl rfl) (length_bufHi l r)
    fun row => (only_lo (r := r) row).trans (and_congr_right fun some => by rw [bufLo, if_neg some])
  have addr := namesStuck_iff (by decide) tag_astk (printable_ascii rfl) (.inr rfl) (length_bufLo l r)
    fun row => (only_addr (r := r) row).trans (and_congr_right fun some => by rw [bufAddr, if_neg some])
  rw [hi, lo, addr, length_ascii (n := 4) rfl, length_ascii (n := 4) rfl, length_ascii (n := 5) rfl]
  omega

/-- The address lines A8 to A12 are stuck; the row ends in "A1". -/
def cutName : BootDiagResult := { BootDiag.initial.result with stuckAddrMask := 0x1F00#16 }

def zeroed : Locals :=
  ⟨⟨List.replicate 22 0, List.length_replicate⟩, ⟨List.replicate 22 0, List.length_replicate⟩,
    ⟨List.replicate 400 0, List.length_replicate⟩, ⟨List.replicate 22 0, List.length_replicate⟩,
    ⟨List.replicate 8 0, List.length_replicate⟩⟩

theorem cutName_shown : ¬∀ (l : Locals) (r : BootDiagResult),
    (bits (r.stuckAddrMask.setWidth 32) 16).length ≤ 10 → r.stuckDataHi &&& r.stuckDataLo = 0 →
      NamesStuck (busTexts l r) (ascii "Dhi:") (byteOf 'D') r.stuckDataHi ∧
        NamesStuck (busTexts l r) (ascii "Dlo:") (byteOf 'D') r.stuckDataLo ∧
        NamesStuck (busTexts l r) (ascii "Astk:") (byteOf 'A') r.stuckAddrMask := by
  intro all
  obtain ⟨-, -, addr⟩ := all zeroed cutName (by decide) (by decide)
  have row : ascii "Astk:A8 A9 A10 A11 A1" ∈ busTexts zeroed cutName := by decide +kernel
  have wrong := addr.sound _ row ⟨_, rfl⟩ (byteOf 'A') (.inr rfl) 1
    ⟨ascii "Astk:A8 A9 A10 A11 ", [], rfl, .inl rfl⟩
  exact absurd wrong.2 (by decide)

end MsxPulse.Firmware.Ui
