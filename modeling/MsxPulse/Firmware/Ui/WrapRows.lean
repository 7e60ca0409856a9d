import MsxPulse.Firmware.Oled
import MsxPulse.Library.CString
import MsxPulse.Library.Wrap

/-!
# Word wrap (ui.c)

`wrap_rows` keeps the row that it fills in a buffer of 22 bytes and prints it when the next
word does not fit, at a newline and at the end. `wrapRows_eq` says which rows that gives.
-/

namespace MsxPulse.Firmware.Ui

open Library Library.CString Oled

/-- The locals of `wrap_rows`, and the rows that it has printed. -/
structure WrapState where
  line : CharArray 22
  col : Nat
  row : Nat
  printed : List Puts

namespace WrapState

/-- `fb_puts(row++, 0, line); col = 0; line[0] = 0;` -/
def flush (s : WrapState) : WrapState where
  line := s.line.set 0 0
  col := 0
  row := s.row + 1
  printed := s.printed ++ [⟨s.row, 0, s.line.text⟩]

/-- Room for a word of `wl` characters, in the next row if need be. -/
def fit (s : WrapState) (wl : Nat) : WrapState :=
  if 0 < s.col ∧ 21 < s.col + 1 + wl then s.flush else s

/-- `if (col > 0) line[col++] = ' ';` -/
def spaced (s : WrapState) : WrapState :=
  if 0 < s.col then { s with line := s.line.set s.col blank, col := s.col + 1 } else s

/-- A word behind those of the row. -/
def put (s : WrapState) (word : List U8) : WrapState :=
  let s := s.spaced
  { s with
    line := (s.line.overwrite s.col word).set (s.col + word.length) 0
    col := s.col + word.length }

theorem spaced_row (s : WrapState) : s.spaced.row = s.row := by
  unfold spaced
  split <;> rfl

theorem spaced_printed (s : WrapState) : s.spaced.printed = s.printed := by
  unfold spaced
  split <;> rfl

theorem put_row (s : WrapState) (word : List U8) : (s.put word).row = s.row := s.spaced_row

theorem put_printed (s : WrapState) (word : List U8) : (s.put word).printed = s.printed :=
  s.spaced_printed

end WrapState

/-- The loop of `wrap_rows` over what `w` points to. -/
def wrapLoop (s : WrapState) : List U8 → WrapState
  | [] => s
  | c :: w =>
    if 7 < s.row then s
    else if c = lf then wrapLoop s.flush w
    else if c = blank then wrapLoop s w
    else
      let word := (c :: w).takeWhile (Wrap.letter blank lf)
      let wl := min word.length 21
      if 7 < (s.fit wl).row then s.fit wl
      else wrapLoop ((s.fit wl).put (word.take wl)) (w.dropWhile (Wrap.letter blank lf))
termination_by w => w.length
decreasing_by
  · exact Nat.lt_succ_self _
  · exact Nat.lt_succ_self _
  · exact Nat.lt_succ_of_le (List.dropWhile_suffix _).length_le

/-- The print behind the loop. -/
def WrapState.finish (s : WrapState) : List Puts :=
  if 0 < s.col ∧ s.row ≤ 7 then s.printed ++ [⟨s.row, 0, s.line.text⟩] else s.printed

/-- `wrap_rows`; `line` is the local array before anything is written. -/
def wrapRows (line : CharArray 22) (msg : List U8) (rowLo : Nat) : List Puts :=
  (wrapLoop ⟨line.set 0 0, 0, rowLo, []⟩ (text msg)).finish

/-! ## The rows printed -/

/-- The prints of rows of words. -/
def placeRows (row : Nat) (rows : List (List (List U8))) : List Puts :=
  place row (rows.map (Wrap.joined blank))

@[simp] theorem placeRows_nil (row : Nat) : placeRows row [] = [] := rfl

@[simp] theorem placeRows_singleton (row : Nat) (r : List (List U8)) :
    placeRows row [r] = [⟨row, 0, Wrap.joined blank r⟩] := rfl

/-- The row that is being filled has the words `cur`. -/
structure Filled (s : WrapState) (cur : List (List U8)) : Prop where
  held : Wrap.joined blank cur ++ [0] <+: s.line.mem
  col : s.col = (Wrap.joined blank cur).length
  width : s.col ≤ 21
  row : s.row ≤ 8
  open_ : cur ≠ [] → s.row ≤ 7
  nonempty : ∀ w ∈ cur, w ≠ []
  nonzero : ∀ w ∈ cur, ∀ b ∈ w, b ≠ 0

namespace Filled

variable {s : WrapState} {cur : List (List U8)}

theorem begun (h : Filled s cur) : 0 < s.col ↔ cur ≠ [] := by
  rw [h.col]
  exact Wrap.length_joined_pos blank h.nonempty

theorem text (h : Filled s cur) : s.line.text = Wrap.joined blank cur := by
  obtain ⟨rest, split⟩ := h.held
  rw [CharArray.text, ← split, List.append_assoc]
  refine text_append_nul fun b inside => ?_
  rcases Wrap.mem_joined inside with rfl | ⟨w, member, here⟩
  · decide
  · exact h.nonzero w member b here

theorem held_nil (line : CharArray 22) : Wrap.joined blank [] ++ [0] <+: (line.set 0 0).mem :=
  prefix_set List.nil_prefix (by rw [line.length_mem]; decide) 0

theorem flushed {s : WrapState} (room : s.row ≤ 7) : Filled s.flush [] where
  held := held_nil s.line
  col := rfl
  width := Nat.zero_le 21
  row := Nat.succ_le_succ room
  open_ := fun some => absurd rfl some
  nonempty := nofun
  nonzero := nofun

theorem spaced (h : Filled s cur) (word : List U8)
    (fits : (Wrap.joined blank (cur ++ [word])).length ≤ 21) :
    ∃ start, Wrap.joined blank (cur ++ [word]) = start ++ word ∧ start <+: s.spaced.line.mem ∧
      s.spaced.col = start.length := by
  have starts : Wrap.joined blank cur <+: s.line.mem := (List.prefix_append _ _).trans h.held
  unfold WrapState.spaced
  by_cases none : cur = []
  · have first : ¬0 < s.col := fun some => h.begun.mp some none
    refine ⟨[], ?_, List.nil_prefix, ?_⟩
    · rw [none, List.nil_append, Wrap.joined_singleton, List.nil_append]
    · rw [if_neg first]
      exact Nat.eq_zero_of_not_pos first
  · have joined := Wrap.joined_concat blank none word
    have col := h.col
    rw [joined, List.length_append, List.length_cons] at fits
    rw [if_pos (h.begun.mpr none)]
    refine ⟨Wrap.joined blank cur ++ [blank], ?_, ?_, ?_⟩
    · rw [joined, List.append_cons]
    · rw [CharArray.mem_set, col]
      exact prefix_set starts (by rw [CharArray.length_mem]; omega) blank
    · rw [List.length_append, ← col]
      rfl

theorem put (h : Filled s cur) (room : s.row ≤ 7) {word : List U8} (nonempty : word ≠ []) (nonzero : ∀ b ∈ word, b ≠ 0)
    (fits : (Wrap.joined blank (cur ++ [word])).length ≤ 21) :
    Filled (s.put word) (cur ++ [word]) := by
  obtain ⟨start, joined, starts, col⟩ := h.spaced word fits
  have size : s.spaced.col + word.length = (start ++ word).length := by
    rw [col, List.length_append]
  rw [joined] at fits
  have row : (s.put word).row ≤ 7 := s.put_row word ▸ room
  refine ⟨?_, ?_, ?_, Nat.le_succ_of_le row, fun _ => row, ?_, ?_⟩
  · show _ <+: (((s.spaced.line.overwrite s.spaced.col word).set _ 0).mem)
    have copied := CharArray.prefix_overwrite starts word (by rw [← List.length_append]; omega)
    rw [joined, size, col, CharArray.mem_set]
    refine prefix_set copied ?_ 0
    rw [CharArray.length_mem]
    omega
  · rw [joined, ← size]
    rfl
  · show s.spaced.col + word.length ≤ 21
    omega
  · exact List.forall_mem_append.mpr ⟨h.nonempty, List.forall_mem_singleton.mpr nonempty⟩
  · exact List.forall_mem_append.mpr ⟨h.nonzero, List.forall_mem_singleton.mpr nonzero⟩

/-- A word is put into the row or begins the next one. -/
theorem fit (h : Filled s cur) (room : s.row ≤ 7) {w t : List U8} (nonempty : w ≠ [])
    (letters : ∀ c ∈ w, Wrap.letter blank lf c = true) (ended : Wrap.Ended blank lf t) :
    ∃ done next, Filled (s.fit (min w.length 21)) next ∧
      (s.fit (min w.length 21)).printed = s.printed ++ placeRows s.row done ∧
      (s.fit (min w.length 21)).row = s.row + done.length ∧
      (Wrap.joined blank (next ++ [w.take 21])).length ≤ 21 ∧
      Wrap.rows blank lf 21 cur (w ++ t) =
        done ++ Wrap.rows blank lf 21 (next ++ [w.take 21]) t := by
  have cut : (w.take 21).length = min w.length 21 := by rw [List.length_take, Nat.min_comm]
  have col := h.col
  rw [Wrap.rows_word cur nonempty letters ended, cut, ← col]
  unfold WrapState.fit
  by_cases full : 0 < s.col ∧ 21 < s.col + 1 + min w.length 21
  · rw [if_pos full, if_pos ⟨h.begun.mp full.1, full.2⟩]
    refine ⟨[cur], [], flushed room, ?_, rfl, ?_, rfl⟩
    · rw [placeRows_singleton, ← h.text]
      rfl
    · rw [List.nil_append, Wrap.joined_singleton, cut]
      omega
  · rw [if_neg full, if_neg fun both => full ⟨h.begun.mpr both.1, both.2⟩]
    refine ⟨[], cur, h, ?_, rfl, ?_, rfl⟩
    · rw [placeRows_nil, List.append_nil]
    · by_cases none : cur = []
      · rw [none, List.nil_append, Wrap.joined_singleton, cut]
        omega
      · have begun := h.begun.mpr none
        rw [Wrap.joined_concat blank none, List.length_append, List.length_cons, cut, ← col]
        omega

end Filled

/-- Rows that are done, and those that fit behind them. -/
theorem placeRows_take {row : Nat} {done : List (List (List U8))} (inside : row + done.length ≤ 8)
    (rest : List (List (List U8))) :
    placeRows row ((done ++ rest).take (8 - row)) =
      placeRows row done ++ placeRows (row + done.length) (rest.take (8 - (row + done.length))) := by
  rw [List.take_append, List.take_of_length_le (by omega), placeRows, List.map_append,
    place_append, List.length_map, Nat.sub_sub]
  rfl

theorem wrapLoop_finish {s : WrapState} {cur : List (List U8)} (h : Filled s cur) {w : List U8}
    (nonzero : ∀ b ∈ w, b ≠ 0) :
    (wrapLoop s w).finish =
      s.printed ++ placeRows s.row ((Wrap.rows blank lf 21 cur w).take (8 - s.row)) := by
  have height := h.row
  fun_induction wrapLoop s w generalizing cur with
  | case1 s =>
    rw [Wrap.rows_nil, WrapState.finish]
    by_cases none : cur = []
    · have unbegun : ¬(0 < s.col ∧ s.row ≤ 7) := fun both => h.begun.mp both.1 none
      rw [if_neg unbegun, if_pos none, List.take_nil, placeRows_nil, List.append_nil]
    · have room := h.open_ none
      rw [if_pos ⟨h.begun.mpr none, room⟩, if_neg none,
        List.take_of_length_le (by rw [List.length_singleton]; omega), placeRows_singleton, h.text]
  | case2 s c w full =>
    rw [WrapState.finish, if_neg (by omega), show 8 - s.row = 0 by omega, List.take_zero,
      placeRows_nil, List.append_nil]
  | case3 s w room ih =>
    have rest : ∀ b ∈ w, b ≠ 0 := fun b inside => nonzero b (List.mem_cons_of_mem _ inside)
    have inside : s.row + [cur].length ≤ 8 := by
      rw [List.length_singleton]
      omega
    rw [Wrap.rows_newline, ih (Filled.flushed (by omega)) rest (by show s.row + 1 ≤ 8; omega),
      ← List.singleton_append, placeRows_take inside, ← List.append_assoc]
    show (s.printed ++ [_]) ++ _ = _
    rw [h.text]
    rfl
  | case4 s w room newline ih =>
    have rest : ∀ b ∈ w, b ≠ 0 := fun b inside => nonzero b (List.mem_cons_of_mem _ inside)
    rw [Wrap.rows_blank (by decide), ih h rest height]
  | case5 s c w room newline space word wl =>
    rename_i full
    have run : c :: w = word ++ _ ∧ word ≠ [] ∧ _ :=
      Wrap.exists_run (by simp [Wrap.letter, newline, space]) w
    obtain ⟨split, nonempty, letters, ended⟩ := run
    obtain ⟨done, next, filled, printed, row, fits, rows⟩ := h.fit (by omega) nonempty letters ended
    have last : s.row + done.length = 8 := Nat.le_antisymm (row ▸ filled.row) (row ▸ full)
    rw [split, rows, placeRows_take last.le, last, Nat.sub_self, List.take_zero, placeRows_nil, List.append_nil,
      WrapState.finish, if_neg fun both => absurd both.2 (Nat.not_le_of_lt full), printed]
  | case6 s c w room newline space word wl inside =>
    rename_i ih
    have run : c :: w = word ++ _ ∧ word ≠ [] ∧ _ :=
      Wrap.exists_run (by simp [Wrap.letter, newline, space]) w
    obtain ⟨split, nonempty, letters, ended⟩ := run
    obtain ⟨done, next, filled, printed, row, fits, rows⟩ := h.fit (by omega) nonempty letters ended
    have whole : ∀ b ∈ word ++ w.dropWhile (Wrap.letter blank lf), b ≠ 0 := split ▸ nonzero
    have cut : word.take wl = word.take 21 :=
      List.take_eq_take_iff.mpr (show min (min word.length 21) word.length = _ by omega)
    have taken := filled.put (Nat.le_of_not_lt inside) (by simpa using nonempty)
      (fun b here => whole b (List.mem_append_left _ (List.mem_of_mem_take here))) fits
    rw [cut] at ih ⊢
    rw [ih taken (fun b here => whole b (List.mem_append_right _ here)) taken.row, split, rows,
      WrapState.put_printed, WrapState.put_row, printed, row, placeRows_take (row ▸ filled.row),
      List.append_assoc]

/-- The rows of the message, as many as the display has below the first. -/
theorem wrapRows_eq (line : CharArray 22) (msg : List U8) {rowLo : Nat} (low : rowLo ≤ 7) :
    wrapRows line msg rowLo =
      placeRows rowLo ((Wrap.rows blank lf 21 [] (text msg)).take (8 - rowLo)) := by
  have empty : Filled ⟨line.set 0 0, 0, rowLo, []⟩ [] :=
    ⟨Filled.held_nil line, rfl, Nat.zero_le 21, Nat.le_succ_of_le low, nofun, nofun, nofun⟩
  exact wrapLoop_finish empty fun b => ne_zero_of_mem_text

/-! ## The words printed -/

/-- A row of the display has a row's words with one blank between neighbours. -/
structure Shows (p : Puts) (r : Nat × List (List U8)) : Prop where
  text : p.text = Wrap.joined blank r.2
  words : Wrap.lineWords blank lf p.text = [r.2]

/-- The words of a message, each with the number of newlines before it and cut to 21
characters. -/
def cutWords (msg : List U8) : List (Nat × List U8) :=
  (Wrap.numbered 0 (Wrap.lineWords blank lf msg)).map fun a => (a.1, a.2.take 21)

/-- Rows whose words are a prefix of the message's. A row is begun only by a newline or by a word
that has no room in the row before, and a word is missing only behind row 7: it is of a later
line than that row's, or has no room there. -/
structure Wraps (msg : List U8) (pages : List Nat) (shown : List (Nat × List (List U8))) : Prop where
  words : Wrap.rowWords shown <+: cutWords msg
  first : ∀ r ∈ shown.head?, r.1 = 0
  broken : shown.IsChain (Wrap.Broken blank 21)
  missing : ∀ w rest, Wrap.rowWords shown ++ w :: rest = cutWords msg →
    pages.getLast? = some 7 ∧ ∃ r, shown.getLast? = some r ∧
      (r.1 < w.1 ∨ r.1 = w.1 ∧ 21 < (Wrap.joined blank r.2).length + 1 + w.2.length)

/-- What the rows printed are: the first rows of the message's layout, as many as there are from
`rowLo` to 7. Each fits and is printed once, in increasing order, and no word that fits is lost. -/
structure Wrapped (msg : List U8) (rowLo : Nat) (printed : List Puts) : Prop where
  layout : printed = placeRows rowLo ((Wrap.rows blank lf 21 [] msg).take (8 - rowLo))
  width : ∀ p ∈ printed, p.text.length ≤ 21
  within : ∀ p ∈ printed, rowLo ≤ p.page ∧ p.page ≤ 7
  increasing : (printed.map Puts.page).Pairwise (· < ·)
  words : ∃ shown : List (Nat × List (List U8)), List.Forall₂ Shows printed shown ∧
    Wraps msg (printed.map Puts.page) shown

theorem placeRows_shows {rows : List (Nat × List (List U8))}
    (words : ∀ r ∈ rows, ∀ w ∈ r.2, w ≠ [] ∧ ∀ c ∈ w, Wrap.letter blank lf c = true) (row : Nat) :
    List.Forall₂ Shows (placeRows row (rows.map Prod.snd)) rows := by
  induction rows generalizing row with
  | nil => exact .nil
  | cons r rest ih =>
    refine .cons ⟨rfl, Wrap.lineWords_joined (by decide) (words r List.mem_cons_self)⟩ ?_
    exact ih (fun r' member => words r' (List.mem_cons_of_mem _ member)) (row + 1)

/-- The words of a message are cut to runs of its letters. -/
theorem word_of_cutWords {msg : List U8} {a : Nat × List U8} (h : a ∈ cutWords msg) :
    a.2 ≠ [] ∧ ∀ c ∈ a.2, Wrap.letter blank lf c = true := by
  obtain ⟨b, member, rfl⟩ := List.mem_map.mp h
  obtain ⟨ws, line, inside⟩ := Wrap.mem_numbered member
  obtain ⟨nonempty, letters⟩ := Wrap.word_of_mem line inside
  exact ⟨by simpa using nonempty, fun c here => (letters c (List.mem_of_mem_take here)).2⟩

/-- The rows of a message, each with the number of newlines before it. -/
def numberedRows (msg : List U8) : List (Nat × List (List U8)) :=
  Wrap.numberedRows blank 21 0 ((Wrap.lineWords blank lf msg).map fun ws => ws.map (List.take 21))

theorem numberedRows_rows (msg : List U8) :
    (numberedRows msg).map Prod.snd = Wrap.rows blank lf 21 [] msg :=
  Wrap.numberedRows_rows blank 21 0 _

theorem numberedRows_words (msg : List U8) : Wrap.rowWords (numberedRows msg) = cutWords msg := by
  rw [numberedRows, Wrap.numberedRows_words, cutWords, Wrap.numbered_map]

/-- As many of the rows as there is space for, if the last of them is row 7 when rows are left. -/
theorem wraps_take {msg : List U8} {pages : List Nat} {n : Nat} (space : 0 < n)
    (full : n < (numberedRows msg).length → pages.getLast? = some 7) :
    Wraps msg pages ((numberedRows msg).take n) := by
  have split := List.take_append_drop n (numberedRows msg)
  have words := numberedRows_words msg
  have chain : (numberedRows msg).IsChain (Wrap.Broken blank 21) := Wrap.numberedRows_broken _ _ _ _
  rw [← split, Wrap.rowWords_append] at words
  refine ⟨⟨_, words⟩, ?_, chain.take n, fun w rest cut => ?_⟩
  · rw [List.head?_take, if_neg space.ne']
    exact Wrap.numberedRows_head blank 21 0 _
  · -- The missing word is the first one behind the last row.
    have behind : Wrap.rowWords ((numberedRows msg).drop n) = w :: rest :=
      List.append_cancel_left (words.trans cut.symm)
    have more : n < (numberedRows msg).length := by
      refine Nat.lt_of_not_le fun all => ?_
      rw [List.drop_eq_nil_of_le all] at behind
      exact absurd behind.symm (List.cons_ne_nil w rest)
    have last : (numberedRows msg).take n ≠ [] := by
      rw [← List.length_pos_iff, List.length_take]
      omega
    refine ⟨full more, _, List.getLast?_eq_some_getLast last, ?_⟩
    rw [← split, ← List.dropLast_append_getLast last, List.append_assoc,
      List.singleton_append] at chain
    exact Wrap.Broken.first chain.right_of_append behind

/-- The rows that `wrap_rows` prints of a message. -/
theorem wrapRows_wrapped (line : CharArray 22) (msg : List U8) {rowLo : Nat} (low : rowLo ≤ 7) :
    Wrapped (text msg) rowLo (wrapRows line msg rowLo) := by
  let rows := numberedRows (text msg)
  have short : ∀ r ∈ Wrap.rows blank lf 21 [] (text msg), (Wrap.joined blank r).length ≤ 21 := by
    refine Wrap.layout_width ?_
    simp only [List.forall_mem_map]
    exact fun ws _ w _ => List.length_take_le 21 w
  have printed : wrapRows line msg rowLo =
      placeRows rowLo ((rows.take (8 - rowLo)).map Prod.snd) := by
    rw [wrapRows_eq line msg low, List.map_take, numberedRows_rows]
  have pages : (wrapRows line msg rowLo).map Puts.page =
      List.range' rowLo (min (8 - rowLo) rows.length) := by
    rw [printed, placeRows, place_pages, List.length_map, List.length_map, List.length_take]
  refine ⟨wrapRows_eq line msg low, fun p member => ?_, fun p member => ?_, ?_,
    rows.take (8 - rowLo), ?_, wraps_take (by omega) fun more => ?_⟩
  · have text := List.mem_map_of_mem (f := Puts.text) member
    rw [wrapRows_eq line msg low, placeRows, place_texts] at text
    obtain ⟨r, taken, text⟩ := List.mem_map.mp text
    rw [← text]
    exact short r (List.mem_of_mem_take taken)
  · have inside := pages ▸ List.mem_map_of_mem (f := Puts.page) member
    rw [List.mem_range'_1] at inside
    omega
  · rw [pages]
    exact List.pairwise_lt_range'
  · rw [printed]
    refine placeRows_shows (fun r member w inside => ?_) rowLo
    have of_msg : (r.1, w) ∈ cutWords (text msg) := by
      rw [← numberedRows_words]
      exact List.mem_flatMap.mpr ⟨r, List.mem_of_mem_take member, List.mem_map.mpr ⟨w, inside, rfl⟩⟩
    exact word_of_cutWords of_msg
  · rw [pages, Nat.min_eq_left more.le, List.getLast?_range', if_neg (by omega)]
    exact congrArg some (show rowLo + (8 - rowLo) - 1 = 7 by omega)

/-- Three lines with a word of 23 characters, from the last row but one on. -/
theorem wrapRows_wrapped_last :
    Wrapped (text (ascii "no bus\naddr-decode-or-ROM-chip no\ncycles")) 6
      (wrapRows ⟨List.replicate 22 0, List.length_replicate⟩
        (ascii "no bus\naddr-decode-or-ROM-chip no\ncycles") 6) :=
  wrapRows_wrapped _ _ (by decide)

end MsxPulse.Firmware.Ui
