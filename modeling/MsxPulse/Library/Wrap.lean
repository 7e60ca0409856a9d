import Mathlib.Data.List.Basic
import Mathlib.Data.List.Chain
import Mathlib.Data.List.TakeWhile

/-!
# Words laid out in rows

A newline ends a line of a text, and blanks stand between the words of a line. A row has
words of one line with one blank between neighbours; a new row is begun when the next word
does not fit the width.
-/

namespace MsxPulse.Library.Wrap

universe u

variable {α : Type u}

/-! ## Rows of words -/

section Rows

variable (sp : α) (width : Nat)

/-- Words with one blank between neighbours. -/
def joined (ws : List (List α)) : List α := [sp].intercalate ws

/-- The rows of a line's words, the first of which has been begun with `cur`. -/
def fill (cur : List (List α)) : List (List α) → List (List (List α))
  | [] => [cur]
  | w :: ws =>
    if cur ≠ [] ∧ width < (joined sp cur).length + 1 + w.length then cur :: fill [w] ws
    else fill (cur ++ [w]) ws

/-- The rows of lines. A last line without words has no row. -/
def layout (cur : List (List α)) : List (List (List α)) → List (List (List α))
  | [] => []
  | [ws] => if cur = [] ∧ ws = [] then [] else fill sp width cur ws
  | ws :: next :: rest => fill sp width cur ws ++ layout [] (next :: rest)

variable {sp width}

@[simp] theorem joined_nil : joined sp [] = [] := rfl

@[simp] theorem joined_singleton (w : List α) : joined sp [w] = w := List.intercalate_singleton

theorem joined_cons_cons (w next : List α) (ws : List (List α)) :
    joined sp (w :: next :: ws) = w ++ sp :: joined sp (next :: ws) := by
  rw [joined, List.intercalate_cons_cons, joined, List.append_assoc]
  rfl

theorem joined_concat (sp : α) {ws : List (List α)} (some : ws ≠ []) (w : List α) :
    joined sp (ws ++ [w]) = joined sp ws ++ sp :: w := by
  induction ws with
  | nil => exact absurd rfl some
  | cons first ws ih =>
    cases ws with
    | nil => simp [joined]
    | cons next ws =>
      have rest := ih (List.cons_ne_nil next ws)
      rw [List.cons_append] at rest
      rw [List.cons_append, List.cons_append, joined_cons_cons, joined_cons_cons, List.append_assoc,
        rest]
      rfl

theorem joined_ne_nil {ws : List (List α)} (some : ws ≠ []) (nonempty : ∀ w ∈ ws, w ≠ []) :
    joined sp ws ≠ [] := by
  cases ws with
  | nil => exact absurd rfl some
  | cons w ws =>
    have first := nonempty w List.mem_cons_self
    cases ws with
    | nil => rwa [joined_singleton]
    | cons next ws =>
      rw [joined_cons_cons]
      exact List.append_ne_nil_of_left_ne_nil first _

theorem length_joined_pos (sp : α) {ws : List (List α)} (nonempty : ∀ w ∈ ws, w ≠ []) :
    0 < (joined sp ws).length ↔ ws ≠ [] := by
  rw [List.length_pos_iff]
  exact ⟨fun some none => some (by rw [none]; rfl), fun some => joined_ne_nil some nonempty⟩

theorem mem_joined {ws : List (List α)} {c : α} (h : c ∈ joined sp ws) :
    c = sp ∨ ∃ w ∈ ws, c ∈ w := by
  induction ws with
  | nil => exact absurd h List.not_mem_nil
  | cons w ws ih =>
    cases ws with
    | nil =>
      rw [joined_singleton] at h
      exact .inr ⟨w, List.mem_cons_self, h⟩
    | cons next ws =>
      rw [joined_cons_cons] at h
      rcases List.mem_append.mp h with first | later
      · exact .inr ⟨w, List.mem_cons_self, first⟩
      · rcases List.mem_cons.mp later with blank | later
        · exact .inl blank
        · rcases ih later with blank | ⟨v, member, here⟩
          · exact .inl blank
          · exact .inr ⟨v, List.mem_cons_of_mem _ member, here⟩

theorem fill_flatten (cur ws : List (List α)) : (fill sp width cur ws).flatten = cur ++ ws := by
  induction ws generalizing cur with
  | nil => simp [fill]
  | cons w ws ih =>
    unfold fill
    split
    · rw [List.flatten_cons, ih, List.singleton_append]
    · rw [ih, List.append_assoc, List.singleton_append]

/-- No row is wider than the width, if no word is. -/
theorem fill_width {cur ws : List (List α)} (begun : (joined sp cur).length ≤ width)
    (fits : ∀ w ∈ ws, w.length ≤ width) :
    ∀ r ∈ fill sp width cur ws, (joined sp r).length ≤ width := by
  induction ws generalizing cur with
  | nil =>
    intro r only
    rwa [List.mem_singleton.mp only]
  | cons w ws ih =>
    have first := fits w List.mem_cons_self
    have rest : ∀ v ∈ ws, v.length ≤ width := fun v member => fits v (List.mem_cons_of_mem _ member)
    unfold fill
    split
    · intro r member
      rcases List.mem_cons.mp member with rfl | later
      · exact begun
      · exact ih ((joined_singleton w).symm ▸ first) rest r later
    · next room =>
      refine ih ?_ rest
      by_cases none : cur = []
      · rw [none, List.nil_append, joined_singleton]
        exact first
      · have short := Nat.le_of_not_lt fun wide => room ⟨none, wide⟩
        rw [joined_concat sp none, List.length_append, List.length_cons]
        omega

/-- How many rows words of some lengths take, the first row having `col` columns. -/
def rowCount (width : Nat) (col : Nat) : List Nat → Nat
  | [] => 1
  | n :: rest =>
    if 0 < col ∧ width < col + 1 + n then rowCount width n rest + 1
    else rowCount width (if col = 0 then n else col + 1 + n) rest

theorem length_fill {cur ws : List (List α)} (begun : ∀ w ∈ cur, w ≠ []) (nonempty : ∀ w ∈ ws, w ≠ []) :
    (fill sp width cur ws).length =
      rowCount width (joined sp cur).length (ws.map List.length) := by
  induction ws generalizing cur with
  | nil => rfl
  | cons w ws ih =>
    have first : ∀ v ∈ [w], v ≠ [] := List.forall_mem_singleton.mpr (nonempty w List.mem_cons_self)
    have rest : ∀ v ∈ ws, v ≠ [] := fun v member => nonempty v (List.mem_cons_of_mem _ member)
    have some := length_joined_pos sp begun
    rw [fill, List.map_cons, rowCount]
    by_cases full : cur ≠ [] ∧ width < (joined sp cur).length + 1 + w.length
    · rw [if_pos full, if_pos ⟨some.mpr full.1, full.2⟩, List.length_cons, ih first rest,
        joined_singleton]
    · rw [if_neg full, if_neg fun both => full ⟨some.mp both.1, both.2⟩,
        ih (List.forall_mem_append.mpr ⟨begun, first⟩) rest]
      by_cases none : cur = []
      · rw [none, List.nil_append, joined_singleton, joined_nil, List.length_nil, if_pos rfl]
      · rw [joined_concat sp none, List.length_append, List.length_cons, if_neg (some.mpr none).ne']
        congr 1
        omega

theorem layout_cons (cur ws : List (List α)) {rest : List (List (List α))} (more : rest ≠ []) :
    layout sp width cur (ws :: rest) = fill sp width cur ws ++ layout sp width [] rest := by
  cases rest with
  | nil => exact absurd rfl more
  | cons next rest => rfl

/-- The next word of a line goes into the row that is begun or begins another. -/
theorem layout_word (cur : List (List α)) (w : List α) (ws : List (List α))
    (rest : List (List (List α))) :
    layout sp width cur ((w :: ws) :: rest) =
      if cur ≠ [] ∧ width < (joined sp cur).length + 1 + w.length then
        cur :: layout sp width [w] (ws :: rest)
      else layout sp width (cur ++ [w]) (ws :: rest) := by
  cases rest with
  | nil =>
    simp only [layout, List.cons_ne_nil, and_false, if_false, List.append_eq_nil_iff, false_and]
    rfl
  | cons next rest =>
    rw [layout_cons _ _ (List.cons_ne_nil next rest), layout_cons _ _ (List.cons_ne_nil next rest),
      layout_cons _ _ (List.cons_ne_nil next rest), fill]
    split <;> rfl

theorem layout_width {lines : List (List (List α))}
    (fits : ∀ ws ∈ lines, ∀ w ∈ ws, w.length ≤ width) :
    ∀ r ∈ layout sp width [] lines, (joined sp r).length ≤ width := by
  have empty : (joined sp ([] : List (List α))).length ≤ width := Nat.zero_le width
  induction lines with
  | nil => exact nofun
  | cons ws rest ih =>
    have first := fits ws List.mem_cons_self
    cases rest with
    | nil =>
      unfold layout
      split
      · exact nofun
      · exact fill_width empty first
    | cons next rest =>
      rw [layout_cons _ _ (List.cons_ne_nil next rest)]
      intro r member
      rcases List.mem_append.mp member with here | later
      · exact fill_width empty first r here
      · exact ih (fun vs inside => fits vs (List.mem_cons_of_mem _ inside)) r later

/-- The words of lines, each with the number of lines before its own. -/
def numbered (n : Nat) : List (List (List α)) → List (Nat × List α)
  | [] => []
  | ws :: rest => ws.map (fun w => (n, w)) ++ numbered (n + 1) rest

/-! Rows with the number of the line that their words come from. -/

/-- A row that begins another line, or whose first word has no room behind the row before. -/
def Broken (sp : α) (width : Nat) (r next : Nat × List (List α)) : Prop :=
  next.1 = r.1 + 1 ∨
    next.1 = r.1 ∧ ∃ w ∈ next.2.head?, width < (joined sp r.2).length + 1 + w.length

/-- The words of rows, each with the number of its line. -/
def rowWords (rows : List (Nat × List (List α))) : List (Nat × List α) :=
  rows.flatMap fun r => r.2.map fun w => (r.1, w)

/-- The rows of lines that are numbered from `n` on. -/
def numberedRows (sp : α) (width n : Nat) : List (List (List α)) → List (Nat × List (List α))
  | [] => []
  | [ws] => if ws = [] then [] else (fill sp width [] ws).map fun r => (n, r)
  | ws :: next :: rest =>
    (fill sp width [] ws).map (fun r => (n, r)) ++ numberedRows sp width (n + 1) (next :: rest)

theorem rowWords_append (rows later : List (Nat × List (List α))) :
    rowWords (rows ++ later) = rowWords rows ++ rowWords later :=
  List.flatMap_append

theorem rowWords_fill (n : Nat) (ws : List (List α)) :
    rowWords ((fill sp width [] ws).map fun r => (n, r)) = ws.map fun w => (n, w) := by
  have flat := @fill_flatten _ sp width [] ws
  rw [List.nil_append] at flat
  rw [rowWords, List.flatMap_map, List.flatMap_def]
  show ((fill sp width [] ws).map (List.map fun w => (n, w))).flatten = _
  rw [← List.map_flatten, flat]

/-- The row that has been begun stays the first one. -/
theorem fill_head (sp : α) (width : Nat) (cur ws : List (List α)) :
    ∃ more rest, fill sp width cur ws = (cur ++ more) :: rest := by
  induction ws generalizing cur with
  | nil => exact ⟨[], [], by rw [fill, List.append_nil]⟩
  | cons w ws ih =>
    unfold fill
    split
    · exact ⟨[], fill sp width [w] ws, by rw [List.append_nil]⟩
    · obtain ⟨more, rest, begun⟩ := ih (cur ++ [w])
      exact ⟨w :: more, rest, by rw [begun, List.append_assoc, List.singleton_append]⟩

/-- Within a line a row is begun by a word that has no room. -/
theorem fill_broken (sp : α) (width n : Nat) (cur ws : List (List α)) :
    ((fill sp width cur ws).map fun r => (n, r)).IsChain (Broken sp width) := by
  induction ws generalizing cur with
  | nil => exact List.isChain_singleton _
  | cons w ws ih =>
    unfold fill
    split
    · next full =>
      obtain ⟨more, rest, begun⟩ := fill_head sp width [w] ws
      have later := ih [w]
      rw [begun] at later ⊢
      exact List.isChain_cons_cons.mpr ⟨.inr ⟨rfl, w, rfl, full.2⟩, later⟩
    · exact ih (cur ++ [w])

theorem numberedRows_rows (sp : α) (width n : Nat) (lines : List (List (List α))) :
    (numberedRows sp width n lines).map Prod.snd = layout sp width [] lines := by
  induction lines generalizing n with
  | nil => rfl
  | cons ws rest ih =>
    cases rest with
    | nil =>
      rw [numberedRows, layout]
      by_cases none : ws = []
      · rw [if_pos none, if_pos ⟨rfl, none⟩, List.map_nil]
      · rw [if_neg none, if_neg fun both => none both.2, List.map_map]
        exact List.map_id _
    | cons next rest =>
      rw [numberedRows, List.map_append, ih, List.map_map, layout_cons _ _ (List.cons_ne_nil next rest)]
      congr 1
      exact List.map_id _

/-- The rows have the words of all lines in their order. -/
theorem numberedRows_words (sp : α) (width n : Nat) (lines : List (List (List α))) :
    rowWords (numberedRows sp width n lines) = numbered n lines := by
  induction lines generalizing n with
  | nil => rfl
  | cons ws rest ih =>
    cases rest with
    | nil =>
      rw [numberedRows, numbered, numbered, List.append_nil]
      split
      · next none =>
        rw [none]
        rfl
      · exact rowWords_fill n ws
    | cons next rest =>
      rw [numberedRows, rowWords_append, rowWords_fill, ih]
      rfl

/-- The first row is of the first line. -/
theorem numberedRows_head (sp : α) (width n : Nat) (lines : List (List (List α))) :
    ∀ r ∈ (numberedRows sp width n lines).head?, r.1 = n := by
  cases lines with
  | nil => exact nofun
  | cons ws rest =>
    obtain ⟨more, later, begun⟩ := fill_head sp width [] ws
    cases rest with
    | nil =>
      rw [numberedRows, begun]
      split
      · exact nofun
      · rintro r ⟨⟩
        rfl
    | cons next rest =>
      rw [numberedRows, begun]
      rintro r ⟨⟩
      rfl

/-- A row is begun by a newline or by a word that has no room. -/
theorem numberedRows_broken (sp : α) (width n : Nat) (lines : List (List (List α))) :
    (numberedRows sp width n lines).IsChain (Broken sp width) := by
  induction lines generalizing n with
  | nil => exact List.isChain_nil
  | cons ws rest ih =>
    cases rest with
    | nil =>
      rw [numberedRows]
      split
      · exact List.isChain_nil
      · exact fill_broken sp width n [] ws
    | cons next rest =>
      rw [numberedRows]
      refine List.isChain_append.mpr ⟨fill_broken sp width n [] ws, ih (n + 1), ?_⟩
      intro r last r' first
      obtain ⟨row, -, rfl⟩ := List.mem_map.mp (List.mem_of_getLast? last)
      exact .inl (numberedRows_head sp width (n + 1) (next :: rest) r' first)

/-- The first word behind a row is of another line or has no room in the row. -/
theorem Broken.first {r : Nat × List (List α)} {later : List (Nat × List (List α))}
    (chain : (r :: later).IsChain (Broken sp width)) {w : Nat × List α} {rest : List (Nat × List α)}
    (words : rowWords later = w :: rest) :
    r.1 < w.1 ∨ r.1 = w.1 ∧ width < (joined sp r.2).length + 1 + w.2.length := by
  induction later generalizing r with
  | nil => exact absurd words.symm (List.cons_ne_nil w rest)
  | cons next later ih =>
    obtain ⟨broken, tail⟩ := List.isChain_cons_cons.mp chain
    obtain ⟨line, row⟩ := next
    cases row with
    | nil =>
      -- An empty row is another line's.
      have newline : line = r.1 + 1 := broken.resolve_right fun ⟨_, _, head, _⟩ => nomatch head
      have below : line ≤ w.1 := (ih tail words).elim Nat.le_of_lt fun same => same.1.le
      exact .inl (Nat.lt_of_succ_le (newline.symm.le.trans below))
    | cons v vs =>
      obtain ⟨rfl, -⟩ := List.cons.inj words
      rcases broken with newline | ⟨same, _, ⟨⟩, full⟩
      · exact .inl (Nat.lt_of_lt_of_eq (Nat.lt_succ_self r.1) newline.symm)
      · exact .inr ⟨same.symm, full⟩

theorem numbered_map (f : List α → List α) (lines : List (List (List α))) (n : Nat) :
    numbered n (lines.map fun ws => ws.map f) = (numbered n lines).map fun a => (a.1, f a.2) := by
  induction lines generalizing n with
  | nil => rfl
  | cons ws rest ih =>
    rw [List.map_cons, numbered, numbered, ih, List.map_append, List.map_map, List.map_map]
    rfl

theorem mem_numbered {lines : List (List (List α))} {n : Nat} {a : Nat × List α}
    (h : a ∈ numbered n lines) : ∃ ws ∈ lines, a.2 ∈ ws := by
  induction lines generalizing n with
  | nil => exact absurd h List.not_mem_nil
  | cons ws rest ih =>
    rcases List.mem_append.mp h with here | later
    · obtain ⟨w, member, rfl⟩ := List.mem_map.mp here
      exact ⟨ws, List.mem_cons_self, member⟩
    · obtain ⟨vs, member, inside⟩ := ih later
      exact ⟨vs, List.mem_cons_of_mem _ member, inside⟩

end Rows

/-! ## Words of texts -/

variable [DecidableEq α]

section Texts

variable (sp nl : α) (width : Nat)

/-- Neither blank nor newline. -/
def letter (c : α) : Bool := c ≠ nl && c ≠ sp

/-- The maximal runs without a blank. -/
def words (l : List α) : List (List α) := (l.splitOn sp).filter (· ≠ [])

/-- The words of each line of a text. -/
def lineWords (text : List α) : List (List (List α)) := (text.splitOn nl).map (words sp)

/-- The rows of a text whose words are cut at the width. -/
def rows (cur : List (List α)) (text : List α) : List (List (List α)) :=
  layout sp width cur ((lineWords sp nl text).map fun ws => ws.map (List.take width))

end Texts

variable {sp nl : α} {width : Nat}

theorem mem_of_mem_splitOn {a : α} {xs l : List α} (piece : l ∈ xs.splitOn a) {c : α}
    (inside : c ∈ l) : c ∈ xs ∧ c ≠ a := by
  induction xs generalizing l with
  | nil =>
    rw [List.splitOn_nil, List.mem_singleton] at piece
    exact absurd (piece ▸ inside) List.not_mem_nil
  | cons x xs ih =>
    obtain ⟨first, rest, split⟩ := List.exists_cons_of_ne_nil (List.splitOn_ne_nil a xs)
    rw [List.splitOn_cons_eq_if_modifyHead, split] at piece
    rw [split] at ih
    by_cases sep : x = a
    · rw [if_pos (beq_iff_eq.mpr sep)] at piece
      rcases List.mem_cons.mp piece with rfl | later
      · exact absurd inside List.not_mem_nil
      · exact ⟨List.mem_cons_of_mem _ (ih later inside).1, (ih later inside).2⟩
    · rw [if_neg (by simpa using sep), List.modifyHead_cons] at piece
      rcases List.mem_cons.mp piece with rfl | later
      · rcases List.mem_cons.mp inside with rfl | here
        · exact ⟨List.mem_cons_self, sep⟩
        · exact ⟨List.mem_cons_of_mem _ (ih List.mem_cons_self here).1,
            (ih List.mem_cons_self here).2⟩
      · have later : l ∈ first :: rest := List.mem_cons_of_mem _ later
        exact ⟨List.mem_cons_of_mem _ (ih later inside).1, (ih later inside).2⟩

theorem splitOn_append {a : α} {w xs first : List α} {rest : List (List α)} (inside : a ∉ w)
    (split : xs.splitOn a = first :: rest) : (w ++ xs).splitOn a = (w ++ first) :: rest := by
  induction w with
  | nil => exact split
  | cons c w ih =>
    have other : ¬c = a := fun same => inside (same ▸ List.mem_cons_self)
    rw [List.cons_append, List.splitOn_cons_eq_if_modifyHead, if_neg (by simpa using other),
      ih fun later => inside (List.mem_cons_of_mem _ later), List.modifyHead_cons]
    rfl

@[simp] theorem words_nil : words sp [] = [] := by
  simp [words]

theorem words_blank (l : List α) : words sp (sp :: l) = words sp l := by
  rw [words, List.splitOn_cons_eq_if_modifyHead, if_pos (beq_self_eq_true sp)]
  simp [words]

theorem words_self {w : List α} (nonempty : w ≠ []) (inside : sp ∉ w) : words sp w = [w] := by
  rw [words, List.splitOn_eq_singleton inside]
  simp [nonempty]

/-- A run up to a blank is a word. -/
theorem words_append {w : List α} (nonempty : w ≠ []) (inside : sp ∉ w) (l : List α) :
    words sp (w ++ sp :: l) = w :: words sp l := by
  rw [words, List.splitOn_append_cons_self_of_not_mem inside]
  simp [words, nonempty]

/-- A word is a run of a text without blanks and newlines. -/
structure Word (sp nl : α) (text w : List α) : Prop where
  nonempty : w ≠ []
  letters : ∀ c ∈ w, c ∈ text ∧ letter sp nl c = true

theorem word_of_mem {text : List α} {ws : List (List α)} (line : ws ∈ lineWords sp nl text)
    {w : List α} (inside : w ∈ ws) : Word sp nl text w := by
  obtain ⟨l, piece, rfl⟩ := List.mem_map.mp line
  obtain ⟨run, nonempty⟩ := List.mem_filter.mp inside
  refine ⟨of_decide_eq_true nonempty, fun c here => ?_⟩
  obtain ⟨of_line, not_blank⟩ := mem_of_mem_splitOn run here
  obtain ⟨of_text, not_newline⟩ := mem_of_mem_splitOn piece of_line
  exact ⟨of_text, by simp [letter, not_blank, not_newline]⟩

@[simp] theorem lineWords_nil : lineWords sp nl [] = [[]] := by
  simp [lineWords]

theorem lineWords_cons (sp nl : α) (t : List α) : ∃ ws rest, lineWords sp nl t = ws :: rest := by
  obtain ⟨first, rest, split⟩ := List.exists_cons_of_ne_nil (List.splitOn_ne_nil nl t)
  exact ⟨words sp first, rest.map (words sp), by rw [lineWords, split, List.map_cons]⟩

theorem lineWords_newline (t : List α) : lineWords sp nl (nl :: t) = [] :: lineWords sp nl t := by
  rw [lineWords, List.splitOn_cons_eq_if_modifyHead, if_pos (beq_self_eq_true nl)]
  simp [lineWords]

theorem lineWords_blank (other : sp ≠ nl) (t : List α) :
    lineWords sp nl (sp :: t) = lineWords sp nl t := by
  obtain ⟨first, rest, split⟩ := List.exists_cons_of_ne_nil (List.splitOn_ne_nil nl t)
  rw [lineWords, lineWords, List.splitOn_cons_eq_if_modifyHead, if_neg (by simpa using other), split,
    List.modifyHead_cons, List.map_cons, List.map_cons, words_blank]

/-- Behind a run of letters a text ends, or a blank or a newline stands there. -/
def Ended (sp nl : α) (t : List α) : Prop := ∀ c ∈ t.head?, letter sp nl c = false

/-- A text that begins with a letter begins with a run of letters. -/
theorem exists_run {c : α} (first : letter sp nl c = true) (t : List α) :
    c :: t = (c :: t).takeWhile (letter sp nl) ++ t.dropWhile (letter sp nl) ∧
      (c :: t).takeWhile (letter sp nl) ≠ [] ∧
      (∀ d ∈ (c :: t).takeWhile (letter sp nl), letter sp nl d = true) ∧
      Ended sp nl (t.dropWhile (letter sp nl)) := by
  refine ⟨?_, ?_, fun d => List.mem_takeWhile_imp, fun d head => ?_⟩
  · rw [List.takeWhile_cons_of_pos first, List.cons_append, List.takeWhile_append_dropWhile]
  · rw [List.takeWhile_cons_of_pos first]
    exact List.cons_ne_nil _ _
  · have behind := List.head?_dropWhile_not (letter sp nl) t
    rw [Option.mem_def.mp head] at behind
    exact behind

/-- A run of letters is the next word of its line. -/
theorem lineWords_append {w t : List α} (nonempty : w ≠ [])
    (letters : ∀ c ∈ w, letter sp nl c = true) (ended : Ended sp nl t) :
    ∃ ws rest, lineWords sp nl t = ws :: rest ∧ lineWords sp nl (w ++ t) = (w :: ws) :: rest := by
  have no_blank : sp ∉ w := fun inside => by simpa [letter] using letters sp inside
  have no_newline : nl ∉ w := fun inside => by simpa [letter] using letters nl inside
  cases t with
  | nil =>
    refine ⟨[], [], lineWords_nil, ?_⟩
    rw [List.append_nil, lineWords, List.splitOn_eq_singleton no_newline, List.map_singleton,
      words_self nonempty no_blank]
  | cons c t =>
    have sep : letter sp nl c = false := ended c rfl
    by_cases newline : c = nl
    · subst newline
      refine ⟨[], lineWords sp c t, lineWords_newline t, ?_⟩
      rw [lineWords, List.splitOn_append_cons_self_of_not_mem no_newline, List.map_cons,
        words_self nonempty no_blank, lineWords]
    · have blank : c = sp := by simpa [letter, newline] using sep
      subst blank
      obtain ⟨first, rest, split⟩ := List.exists_cons_of_ne_nil (List.splitOn_ne_nil nl t)
      refine ⟨words c first, rest.map (words c), ?_, ?_⟩
      · rw [lineWords_blank newline, lineWords, split, List.map_cons]
      · have run : (w ++ c :: t).splitOn nl = (w ++ c :: first) :: rest := by
          have behind : (c :: t).splitOn nl = (c :: first) :: rest := by
            rw [List.splitOn_cons_eq_if_modifyHead, if_neg (by simpa using newline), split,
              List.modifyHead_cons]
          exact splitOn_append no_newline behind
        rw [lineWords, run, List.map_cons, words_append nonempty no_blank]

theorem words_joined {ws : List (List α)} (all : ∀ w ∈ ws, w ≠ [] ∧ sp ∉ w) :
    words sp (joined sp ws) = ws := by
  induction ws with
  | nil => exact words_nil
  | cons w ws ih =>
    obtain ⟨nonempty, inside⟩ := all w List.mem_cons_self
    have rest := ih fun v member => all v (List.mem_cons_of_mem _ member)
    cases ws with
    | nil => rw [joined_singleton, words_self nonempty inside]
    | cons next ws => rw [joined_cons_cons, words_append nonempty inside, rest]

/-- A row is one line with just its words. -/
theorem lineWords_joined (other : sp ≠ nl) {ws : List (List α)}
    (all : ∀ w ∈ ws, w ≠ [] ∧ ∀ c ∈ w, letter sp nl c = true) :
    lineWords sp nl (joined sp ws) = [ws] := by
  have no_newline : nl ∉ joined sp ws := by
    intro inside
    rcases mem_joined inside with same | ⟨w, member, here⟩
    · exact other same.symm
    · simpa [letter] using (all w member).2 nl here
  rw [lineWords, List.splitOn_eq_singleton no_newline, List.map_singleton, words_joined]
  exact fun w member => ⟨(all w member).1, fun inside => by simpa [letter] using (all w member).2 sp inside⟩

/-! ## The rows of a text -/

theorem rows_nil (cur : List (List α)) :
    rows sp nl width cur [] = if cur = [] then [] else [cur] := by
  simp [rows, layout, fill]

theorem rows_newline (cur : List (List α)) (t : List α) :
    rows sp nl width cur (nl :: t) = cur :: rows sp nl width [] t := by
  obtain ⟨ws, rest, split⟩ := lineWords_cons sp nl t
  rw [rows, rows, lineWords_newline, List.map_cons, layout_cons _ _ (by simp [split])]
  rfl

theorem rows_blank (other : sp ≠ nl) (cur : List (List α)) (t : List α) :
    rows sp nl width cur (sp :: t) = rows sp nl width cur t := by
  rw [rows, rows, lineWords_blank other]

theorem rows_word (cur : List (List α)) {w t : List α} (nonempty : w ≠ [])
    (letters : ∀ c ∈ w, letter sp nl c = true) (ended : Ended sp nl t) :
    rows sp nl width cur (w ++ t) =
      if cur ≠ [] ∧ width < (joined sp cur).length + 1 + (w.take width).length then
        cur :: rows sp nl width [w.take width] t
      else rows sp nl width (cur ++ [w.take width]) t := by
  obtain ⟨ws, rest, of_rest, of_whole⟩ := lineWords_append nonempty letters ended
  rw [rows, rows, rows, of_rest, of_whole, List.map_cons, List.map_cons, List.map_cons, layout_word]

theorem rows_line {l : List α} (plain : nl ∉ l) (t : List α) :
    rows sp nl width [] (l ++ nl :: t) =
      fill sp width [] ((words sp l).map (List.take width)) ++ rows sp nl width [] t := by
  obtain ⟨ws, rest, split⟩ := lineWords_cons sp nl t
  have first : lineWords sp nl (l ++ nl :: t) = words sp l :: lineWords sp nl t := by
    rw [lineWords, List.splitOn_append_cons_self_of_not_mem plain, List.map_cons, lineWords]
  rw [rows, rows, first, List.map_cons, layout_cons _ _ (by simp [split])]

end MsxPulse.Library.Wrap
