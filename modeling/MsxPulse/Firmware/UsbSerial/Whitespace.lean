import MsxPulse.Firmware.UsbSerial.Grammar

/-!
# Case and white space around a command

The leading strip loop takes spaces and tabs, the trailing one spaces, CR and LF. A
tab behind the command therefore stays, and nothing before it is stripped either. The
numeral parsers stop at it; the fixed words no longer match.
-/

namespace MsxPulse.Firmware.UsbSerial

open Library CString

/-- What may stand behind a command. -/
def White (c : U8) : Prop := c = blank ∨ c = tab ∨ c = cr ∨ c = lf

instance : DecidablePred White := fun c =>
  inferInstanceAs (Decidable (c = blank ∨ c = tab ∨ c = cr ∨ c = lf))

theorem White.isSpace {c : U8} (h : White c) : isSpace c = true := by
  rcases h with rfl | rfl | rfl | rfl <;> decide

theorem White.isTrail {c : U8} (h : White c) (notTab : c ≠ tab) : isTrail c = true := by
  rcases h with rfl | rfl | rfl | rfl
  · decide
  · exact absurd rfl notTab
  · decide
  · decide

theorem White.ne_zero {c : U8} (h : White c) : c ≠ 0 := by
  rcases h with rfl | rfl | rfl | rfl <;> decide

theorem White.toLower {c : U8} (h : White c) : toLower c = c := by
  rcases h with rfl | rfl | rfl | rfl <;> decide

theorem white_of_isTrail {c : U8} (h : isTrail c = true) : White c := by
  simp only [isTrail, Bool.or_eq_true, beq_iff_eq] at h
  rcases h with (rfl | rfl) | rfl
  · exact .inr (.inr (.inr rfl))
  · exact .inr (.inr (.inl rfl))
  · exact .inl rfl

/-! ## Stripping -/

theorem rdropWhile_append (p : U8 → Bool) (a b : List U8) :
    (a ++ b).rdropWhile p = if b.rdropWhile p = [] then a.rdropWhile p else a ++ b.rdropWhile p := by
  rw [List.rdropWhile, List.reverse_append, List.dropWhile_append]
  simp only [List.rdropWhile, List.reverse_eq_nil_iff, List.isEmpty_iff]
  split <;> simp

/-- A character that is not stripped stays. -/
theorem mem_rdropWhile {p : U8 → Bool} {l : List U8} {c : U8} (inside : c ∈ l) (stays : p c = false) :
    c ∈ l.rdropWhile p := by
  rw [← List.rdropWhile_append_rtakeWhile (p := p) (l := l)] at inside
  rcases List.mem_append.mp inside with kept | stripped
  · exact kept
  · have taken := List.mem_rtakeWhile_imp stripped
    rw [stays] at taken
    cases taken

theorem mem_dropWhile {p : U8 → Bool} {l : List U8} {c : U8} (inside : c ∈ l) (stays : p c = false) :
    c ∈ l.dropWhile p := by
  rw [← List.takeWhile_append_dropWhile (p := p) (l := l)] at inside
  rcases List.mem_append.mp inside with stripped | kept
  · have taken := List.mem_takeWhile_imp stripped
    rw [stays] at taken
    cases taken
  · exact kept

theorem strip_append_lead {w : List U8} (lead : ∀ c ∈ w, isLead c = true) (x : List U8) :
    strip (w ++ x) = strip x := by
  rw [strip, List.dropWhile_append_of_pos lead, strip]

/-- Behind what was stripped bare, white space leaves white space: none if there is no
tab in it, and otherwise the tab too, unless the text was stripped to nothing. -/
theorem strip_append_white (x : List U8) {v : List U8} (white : ∀ c ∈ v, White c) :
    ∃ z, strip (x ++ v) = strip x ++ z ∧ (∀ c ∈ z, White c) ∧ (tab ∉ v → z = []) ∧
      (tab ∈ v → strip x ≠ [] → tab ∈ z) := by
  have trails {l : List U8} (white : ∀ c ∈ l, White c) (none : tab ∉ l) :
      l.rdropWhile isTrail = [] :=
    List.rdropWhile_eq_nil_iff.mpr fun c inside =>
      (white c inside).isTrail fun same => none (same ▸ inside)
  by_cases empty : x.dropWhile isLead = []
  · have bare : strip x = [] := by rw [strip, empty, List.rdropWhile_nil]
    have kept (c : U8) (inside : c ∈ v.dropWhile isLead) : c ∈ v :=
      (List.dropWhile_sublist _).mem inside
    refine ⟨strip v, ?_, fun c inside => ?_, fun none => ?_, fun _ some => absurd bare some⟩
    · rw [bare, List.nil_append, strip, List.dropWhile_append, if_pos (by simpa using empty), strip]
    · exact white c (kept c ((List.rdropWhile_prefix _ _).sublist.mem inside))
    · exact trails (fun c inside => white c (kept c inside)) fun inside => none (kept _ inside)
  · -- What the trailing loop took from the text alone, it meets again before `v`.
    let u := (x.dropWhile isLead).rtakeWhile isTrail
    have split : strip x ++ u = x.dropWhile isLead := List.rdropWhile_append_rtakeWhile
    have trail : ∀ c ∈ u, isTrail c = true := fun c inside => List.mem_rtakeWhile_imp inside
    have all : ∀ c ∈ u ++ v, White c := fun c inside =>
      (List.mem_append.mp inside).elim (fun old => white_of_isTrail (trail c old)) (white c)
    have again : (strip x).rdropWhile isTrail = strip x := List.rdropWhile_idempotent _ _
    refine ⟨(u ++ v).rdropWhile isTrail, ?_, fun c inside => ?_, fun none => ?_,
      fun some _ => ?_⟩
    · rw [strip, List.dropWhile_append, if_neg (by simpa using empty), ← split, List.append_assoc,
        rdropWhile_append, again]
      split
      · next nothing => rw [nothing, List.append_nil]
      · rfl
    · exact all c ((List.rdropWhile_prefix _ _).sublist.mem inside)
    · refine trails all fun inside => ?_
      rcases List.mem_append.mp inside with old | new
      · exact absurd (trail tab old) (by decide)
      · exact none new
    · exact mem_rdropWhile (List.mem_append_right _ some) (by decide)

/-! ## White space behind a stripped text -/

/-- The texts that the parser compares as a whole. -/
def Fixed (t : List U8) : Prop :=
  (∃ type, (t, type) ∈ keywords) ∨ ∃ rest, (rest = [] ∨ rest.head? = some blank) ∧
    t = ascii "alog" ++ rest ∧
      (alogArg rest = [] ∨ alogArg rest = ascii "reset" ∨ alogArg rest = ascii "debug")

section Behind

variable {t z : List U8} (white : ∀ c ∈ z, White c)

include white

theorem spaces_behind : ∀ c ∈ z, isSpace c = true := fun c inside => (white c inside).isSpace

/-- White space cannot complete a word that has none. -/
theorem word_before {word rest : List U8} (plain : ∀ c ∈ word, isSpace c = false)
    (same : t ++ z = word ++ rest) : ∃ rest', t = word ++ rest' ∧ rest = rest' ++ z := by
  rcases List.append_eq_append_iff.mp same with ⟨more, rfl, split⟩ | ⟨more, rfl, split⟩
  · cases more with
    | nil => exact ⟨[], by simp, by simpa using split.symm⟩
    | cons c more =>
      have space := spaces_behind white c (by rw [split]; exact List.mem_cons_self)
      rw [plain c (by simp)] at space
      cases space
  · exact ⟨more, rfl, split⟩

theorem keyword_behind (nonempty : z ≠ []) (type : CmdType) : (t ++ z, type) ∉ keywords := by
  intro listed
  have all : ∀ entry ∈ keywords, ∀ c ∈ entry.1.getLast?, isSpace c = false := by decide
  have last := all _ listed (z.getLast nonempty) (by
    rw [List.getLast?_append, List.getLast?_eq_some_getLast nonempty]
    rfl)
  rw [spaces_behind white _ (List.getLast_mem nonempty)] at last
  cases last

theorem dumpArg_behind (rest : List U8) :
    strtoul 16 (dumpArg (rest ++ z)) = strtoul 16 (dumpArg rest) := by
  have unmarked {l : List U8} (white : ∀ c ∈ l, isSpace c = true) : skipDollar l = l := by
    refine if_neg fun mark => ?_
    exact absurd (white dollar (List.mem_of_head? mark)) (by decide)
  unfold dumpArg
  rw [List.dropWhile_append]
  by_cases empty : rest.dropWhile (· == blank) = []
  · have spaces : ∀ c ∈ z.dropWhile (· == blank), isSpace c = true := fun c inside =>
      spaces_behind white c ((List.dropWhile_sublist _).mem inside)
    have nothing := strtoul_append_space 16 [] spaces
    rw [if_pos (by simpa using empty), unmarked spaces, empty]
    exact nothing
  · have skipped : skipDollar (rest.dropWhile (· == blank) ++ z) =
        skipDollar (rest.dropWhile (· == blank)) ++ z := by
      obtain ⟨c, tail, start⟩ := List.exists_cons_of_ne_nil empty
      rw [start, List.cons_append, skipDollar, skipDollar, List.head?_cons, List.head?_cons]
      split <;> rfl
    rw [if_neg (by simpa using empty), skipped, strtoul_append_space 16 _ (spaces_behind white)]

omit white in
theorem alogArg_behind {rest : List U8} (some : alogArg rest ≠ []) :
    alogArg (rest ++ z) = alogArg rest ++ z := by
  rw [alogArg, List.dropWhile_append, if_neg (by simpa [alogArg] using some), alogArg]

/-- No fixed word behind `alog` takes white space. -/
theorem word_not_behind {arg word : List U8} (nonempty : z ≠ [])
    (plain : ∀ c ∈ word, isSpace c = false) : arg ++ z ≠ word := by
  rintro rfl
  obtain ⟨c, tail, rfl⟩ := List.exists_cons_of_ne_nil nonempty
  have space := spaces_behind white c List.mem_cons_self
  rw [plain c (by simp)] at space
  cases space

theorem parseAlog_behind {rest : List U8} (nonempty : z ≠ []) (some : alogArg (rest ++ z) ≠ [])
    (ends : ∃ arg, alogArg (rest ++ z) = arg ++ z) : parseAlog (rest ++ z) =
      ⟨.alogSlot, (strtoul 10 (alogArg (rest ++ z))).setWidth 16⟩ := by
  obtain ⟨arg, same⟩ := ends
  have notWord {word : List U8} (plain : ∀ c ∈ word, isSpace c = false) :
      alogArg (rest ++ z) ≠ word := same ▸ word_not_behind white nonempty plain
  rw [parseAlog, if_neg some, if_neg (notWord (by decide)), if_neg (notWord (by decide))]

/-- A text that is not compared as a whole is parsed as if nothing stood behind it. -/
theorem parseText_behind (loose : ¬ Fixed t) : parseText (t ++ z) = parseText t := by
  by_cases nonempty : z = []
  · rw [nonempty, List.append_nil]
  rcases text_cases t with ⟨type, listed⟩ | ⟨rest, rfl⟩ | ⟨rest, ended, rfl⟩ | foreign
  · exact absurd (.inl ⟨type, listed⟩) loose
  · rw [List.append_assoc, parseText_dump, parseText_dump, parseDump, dumpArg_behind white,
      parseDump]
  · have free : ¬ (alogArg rest = [] ∨ alogArg rest = ascii "reset" ∨
        alogArg rest = ascii "debug") := fun word => loose (.inr ⟨rest, ended, rfl, word⟩)
    rw [not_or, not_or] at free
    have spaced : rest.head? = some blank := ended.resolve_left fun empty => by
      rw [empty] at free
      exact free.1 rfl
    have still : (rest ++ z).head? = some blank := by rw [List.head?_append, spaced]; rfl
    have arg := alogArg_behind (z := z) free.1
    rw [List.append_assoc, parseText_alog (.inr still), parseText_alog ended,
      parseAlog_behind white nonempty (by rw [arg]; simp [free.1]) ⟨_, arg⟩, arg,
      strtoul_append_space 10 _ (spaces_behind white), parseAlog, if_neg free.1,
      if_neg free.2.1, if_neg free.2.2]
  · have foreign' : Foreign (t ++ z) := by
      refine ⟨keyword_behind white nonempty, fun rest same => ?_, fun rest ended same => ?_⟩
      · obtain ⟨rest', before, -⟩ := word_before white (by decide) same
        exact foreign.dump rest' before
      · obtain ⟨rest', before, rfl⟩ := word_before white (by decide) same
        refine foreign.alog rest' ?_ before
        cases rest' with
        | nil => exact .inl rfl
        | cons c tail => exact ended.imp_left fun h => by cases h
    rw [foreign'.parseText, foreign.parseText]

/-- With a tab behind it, a text that is compared as a whole is another command. -/
theorem parseText_tab_behind (fixed : Fixed t) (tabbed : tab ∈ z) :
    parseText (t ++ z) ≠ parseText t := by
  have nonempty : z ≠ [] := List.ne_nil_of_mem tabbed
  rcases fixed with ⟨type, listed⟩ | ⟨rest, ended, rfl, word⟩
  · have known : ∀ entry ∈ keywords, entry.2 ≠ .unknown := by decide
    have foreign : Foreign (t ++ z) := by
      refine ⟨keyword_behind white nonempty, fun rest same => ?_, fun rest _ same => ?_⟩
      · obtain ⟨rest', before, -⟩ := word_before white (by decide) same
        exact keyword_not_dump listed before
      · obtain ⟨rest', before, -⟩ := word_before white (by decide) same
        exact keyword_not_alog listed before
    rw [foreign.parseText, parseText_keyword listed]
    exact fun same => known _ listed (congrArg ParsedCmd.type same).symm
  · have whole : (parseAlog rest).type ∈ [CmdType.alogStatus, .alogReset, .alogDebug] := by
      unfold parseAlog
      rcases word with word | word | word <;> rw [word] <;> decide
    rw [parseText_alog ended, List.append_assoc]
    intro same
    rw [← same] at whole
    by_cases still : (rest ++ z).head? = some blank
    · have kept : tab ∈ alogArg (rest ++ z) :=
        mem_dropWhile (List.mem_append_right _ tabbed) (by decide)
      have other {word : List U8} (plain : tab ∉ word) : alogArg (rest ++ z) ≠ word := by
        rintro rfl
        exact plain kept
      rw [parseText_alog (.inr still), parseAlog, if_neg (other (by decide)),
        if_neg (other (by decide)), if_neg (other (by decide))] at whole
      exact absurd whole (by simp)
    · have foreign : Foreign (ascii "alog" ++ (rest ++ z)) := by
        refine ⟨fun type listed => keyword_not_alog listed rfl, fun other same => ?_,
          fun other ended same => ?_⟩
        · have first : some (97 : U8) = some 100 := congrArg List.head? same
          exact absurd first (by decide)
        · rw [← List.append_cancel_left same] at ended
          exact ended.elim (fun empty => nonempty (List.append_eq_nil_iff.mp empty).2) still
      rw [foreign.parseText] at whole
      exact absurd whole (by decide)

end Behind

/-! ## Lines -/

theorem Fixed.nonempty {t : List U8} (h : Fixed t) : t ≠ [] := by
  have words : ∀ entry ∈ keywords, entry.1 ≠ [] := by decide
  rcases h with ⟨type, listed⟩ | ⟨rest, -, rfl, -⟩
  · exact words _ listed
  · exact List.cons_ne_nil _ _

theorem toLower_eq_zero {c : U8} : toLower c = 0 ↔ c = 0 := by
  revert c
  decide

/-- The letters of `c'` are those of `c`, up to case. -/
def SameLetters (c c' : List U8) : Prop := c'.map toLower = c.map toLower

theorem SameLetters.nonzero {c c' : List U8} (h : SameLetters c c') (nonzero : ∀ b ∈ c, b ≠ 0) :
    ∀ b ∈ c', b ≠ 0 := by
  rintro b inside rfl
  have lowered : toLower 0 ∈ c'.map toLower := List.mem_map_of_mem inside
  rw [h] at lowered
  obtain ⟨b, inside, zero⟩ := List.mem_map.mp lowered
  exact nonzero b inside (toLower_eq_zero.mp (zero.trans rfl))

/-- A core text `c` written as `c'`, with blanks before and white space behind it. -/
structure Surrounded (w c c' v : List U8) : Prop where
  letters : SameLetters c c'
  nonzero : ∀ b ∈ c, b ≠ 0
  lead : ∀ b ∈ w, b = blank ∨ b = tab
  trail : ∀ b ∈ v, White b
  short : (w ++ c' ++ v).length ≤ 63

namespace Surrounded

variable {w c c' v : List U8}

theorem text_line (h : Surrounded w c c' v) : text (w ++ c' ++ v) = w ++ c' ++ v := by
  refine text_of_ne_zero fun b inside => ?_
  rcases List.mem_append.mp inside with front | behind
  · rcases List.mem_append.mp front with leads | core
    · exact White.ne_zero ((h.lead b leads).imp_right .inl)
    · exact h.letters.nonzero h.nonzero b core
  · exact (h.trail b behind).ne_zero

theorem text_core (h : Surrounded w c c' v) : text c = c := text_of_ne_zero h.nonzero

theorem length_core (h : Surrounded w c c' v) : c.length ≤ 63 := by
  have same : c'.length = c.length := by
    rw [← List.length_map (f := toLower), h.letters, List.length_map]
  have total := h.short
  rw [List.length_append, List.length_append] at total
  omega

/-- The stripped line is the stripped core and what the tabs keep behind it. -/
theorem normalized_line (h : Surrounded w c c' v) :
    ∃ z, normalized (w ++ c' ++ v) = normalized c ++ z ∧ (∀ b ∈ z, White b) ∧
      (tab ∉ v → z = []) ∧ (tab ∈ v → normalized c ≠ [] → tab ∈ z) := by
  have lead : ∀ b ∈ w, isLead b = true := fun b inside => by
    rcases h.lead b inside with rfl | rfl <;> decide
  have lowered {l : List U8} (white : ∀ b ∈ l, White b) : l.map toLower = l :=
    (List.map_congr_left fun b inside => (white b inside).toLower).trans (List.map_id l)
  have front : w.map toLower = w :=
    lowered fun b inside => (h.lead b inside).imp_right Or.inl
  rw [normalized, h.text_line, List.map_append, List.map_append, front, h.letters,
    lowered h.trail, List.append_assoc, strip_append_lead lead, normalized, h.text_core]
  exact strip_append_white (c.map toLower) h.trail

end Surrounded

/-- Case and white space around a command do not matter exactly if no tab stands
behind it or it is not one of the texts compared as a whole. -/
theorem parse_surrounded_iff {w c c' v : List U8} (h : Surrounded w c c' v) :
    parseCmd (some (w ++ c' ++ v)) = parseCmd (some c) ↔ tab ∉ v ∨ ¬ Fixed (normalized c) := by
  obtain ⟨z, line, white, none, some_⟩ := h.normalized_line
  rw [parseCmd_short (by rw [h.text_line]; exact h.short),
    parseCmd_short (by rw [h.text_core]; exact h.length_core), line]
  constructor
  · intro same
    by_contra wrong
    rw [not_or, not_not, not_not] at wrong
    exact parseText_tab_behind white wrong.2 (some_ wrong.1 wrong.2.nonempty) same
  · rintro (untabbed | loose)
    · rw [none untabbed, List.append_nil]
    · exact parseText_behind white loose

theorem parse_surrounded_iff_status :
    parseCmd (some (ascii " \t" ++ ascii "Status" ++ ascii " \r\n")) =
        parseCmd (some (ascii "STATUS")) ↔
      tab ∉ ascii " \r\n" ∨ ¬ Fixed (normalized (ascii "STATUS")) :=
  parse_surrounded_iff ⟨by unfold SameLetters; decide, by decide, by decide, by decide, by decide⟩

/-- A tab behind HELP makes it unknown. -/
theorem help_tab_differs :
    Surrounded [] (ascii "help") (ascii "help") (ascii "\t\r\n") ∧
      parseCmd (some ([] ++ ascii "help" ++ ascii "\t\r\n")) ≠ parseCmd (some (ascii "help")) :=
  ⟨⟨rfl, by decide, by decide, by decide, by decide⟩, by decide⟩

end MsxPulse.Firmware.UsbSerial
