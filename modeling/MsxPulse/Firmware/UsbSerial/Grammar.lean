import MsxPulse.Firmware.UsbSerial.Parse

/-!
# The grammar of the commands

What `cmd_help` documents, as a relation between a stripped lower-case text and the
command it stands for. The parser agrees with it except on texts that begin with
`dump` or `alog` and go on with something else than one whole numeral of 16 bits.
-/

namespace MsxPulse.Firmware.UsbSerial

open Library CString

/-- A numeral whose value an `arg_addr` can hold. -/
structure FullNumeral (base : Nat) (s : List U8) : Prop where
  numeral : Numeral base s
  fits : numeralValue base s ≤ 65535

instance (base : Nat) (s : List U8) : Decidable (FullNumeral base s) :=
  decidable_of_iff (Numeral base s ∧ numeralValue base s ≤ 65535)
    ⟨fun h => ⟨h.1, h.2⟩, fun h => ⟨h.numeral, h.fits⟩⟩

def Blanks (gap : List U8) : Prop := ∀ c ∈ gap, c = blank

/-- The documented commands. -/
inductive Command : List U8 → ParsedCmd → Prop where
  | keyword {word : List U8} {type : CmdType} (listed : (word, type) ∈ keywords) :
      Command word ⟨type, 0⟩
  | dump : Command (ascii "dump") ⟨.dumpHex, 0⟩
  | dumpAt {gap mark digits : List U8} (spaces : Blanks gap) (marked : mark = [] ∨ mark = [dollar])
      (numeral : FullNumeral 16 digits) :
      Command (ascii "dump" ++ (gap ++ (mark ++ digits)))
        ⟨.dumpHex, BitVec.ofNat 16 (numeralValue 16 digits)⟩
  | alog : Command (ascii "alog") ⟨.alogStatus, 0⟩
  | alogReset {gap : List U8} (spaces : Blanks gap) :
      Command (ascii "alog" ++ (blank :: gap ++ ascii "reset")) ⟨.alogReset, 0⟩
  | alogDebug {gap : List U8} (spaces : Blanks gap) :
      Command (ascii "alog" ++ (blank :: gap ++ ascii "debug")) ⟨.alogDebug, 0⟩
  | alogSlot {gap digits : List U8} (spaces : Blanks gap) (numeral : FullNumeral 10 digits) :
      Command (ascii "alog" ++ (blank :: gap ++ digits))
        ⟨.alogSlot, BitVec.ofNat 16 (numeralValue 10 digits)⟩

/-- The result is the command that the text stands for, or the text is no command and
the result is `CMD_UNKNOWN`. -/
def Exact (t : List U8) (r : ParsedCmd) : Prop :=
  Command t r ∨ (r.type = .unknown ∧ ∀ cmd, ¬ Command t cmd)

/-! ## What the parser compares -/

theorem keyword_not_dump {word rest : List U8} {type : CmdType} (listed : (word, type) ∈ keywords) :
    word ≠ ascii "dump" ++ rest := by
  rintro rfl
  simp [keywords, ascii] at listed

theorem keyword_not_alog {word rest : List U8} {type : CmdType} (listed : (word, type) ∈ keywords) :
    word ≠ ascii "alog" ++ rest := by
  rintro rfl
  simp [keywords, ascii] at listed

theorem parseText_keyword {word : List U8} {type : CmdType} (listed : (word, type) ∈ keywords) :
    parseText word = ⟨type, 0⟩ := by
  have all : ∀ entry ∈ keywords, parseText entry.1 = ⟨entry.2, 0⟩ := by decide
  exact all _ listed

theorem find_keyword_none {t : List U8} (none : ∀ type, (t, type) ∉ keywords) :
    keywords.find? (·.1 == t) = .none := by
  rw [List.find?_eq_none]
  rintro ⟨word, type⟩ listed same
  rw [beq_iff_eq] at same
  exact none type (same ▸ listed)

theorem parseText_dump (rest : List U8) : parseText (ascii "dump" ++ rest) = parseDump rest := by
  have none : ∀ type, (ascii "dump" ++ rest, type) ∉ keywords := fun type listed =>
    keyword_not_dump listed rfl
  rw [parseText, find_keyword_none none]
  exact if_pos rfl

theorem parseText_alog {rest : List U8} (ended : rest = [] ∨ rest.head? = some blank) :
    parseText (ascii "alog" ++ rest) = parseAlog rest := by
  have none : ∀ type, (ascii "alog" ++ rest, type) ∉ keywords := fun type listed =>
    keyword_not_alog listed rfl
  rw [parseText, find_keyword_none none]
  have other : (ascii "alog" ++ rest).take 4 ≠ ascii "dump" := by
    show ascii "alog" ≠ ascii "dump"
    decide
  exact (if_neg other).trans (if_pos ⟨rfl, ended⟩)

/-- Neither a keyword, nor `dump` and something, nor `alog` alone or with a space. -/
structure Foreign (t : List U8) : Prop where
  keyword : ∀ type, (t, type) ∉ keywords
  dump : ∀ rest, t ≠ ascii "dump" ++ rest
  alog : ∀ rest, rest = [] ∨ rest.head? = some blank → t ≠ ascii "alog" ++ rest

theorem Foreign.parseText {t : List U8} (h : Foreign t) : parseText t = ⟨.unknown, 0⟩ := by
  have notDump : t.take 4 ≠ ascii "dump" := fun same =>
    h.dump (t.drop 4) (by rw [← same, List.take_append_drop])
  have notAlog : ¬ (t.take 4 = ascii "alog" ∧ (t.drop 4 = [] ∨ (t.drop 4).head? = some blank)) :=
    fun same => h.alog (t.drop 4) same.2 (by rw [← same.1, List.take_append_drop])
  rw [UsbSerial.parseText, find_keyword_none h.keyword]
  exact (if_neg notDump).trans (if_neg notAlog)

/-- The four kinds of text that the parser tells apart. -/
theorem text_cases (t : List U8) :
    (∃ type, (t, type) ∈ keywords) ∨ (∃ rest, t = ascii "dump" ++ rest) ∨
      (∃ rest, (rest = [] ∨ rest.head? = some blank) ∧ t = ascii "alog" ++ rest) ∨ Foreign t := by
  by_cases keyword : ∃ type, (t, type) ∈ keywords
  · exact .inl keyword
  by_cases dump : ∃ rest, t = ascii "dump" ++ rest
  · exact .inr (.inl dump)
  by_cases alog : ∃ rest, (rest = [] ∨ rest.head? = some blank) ∧ t = ascii "alog" ++ rest
  · exact .inr (.inr (.inl alog))
  · exact .inr (.inr (.inr ⟨fun type listed => keyword ⟨type, listed⟩,
      fun rest same => dump ⟨rest, same⟩, fun rest ended same => alog ⟨rest, ended, same⟩⟩))

theorem Foreign.not_command {t : List U8} (h : Foreign t) (cmd : ParsedCmd) : ¬ Command t cmd := by
  rintro (listed | _ | _ | _ | _ | _ | _)
  · exact h.keyword _ listed
  · exact h.dump [] rfl
  · exact h.dump _ rfl
  · exact h.alog [] (.inl rfl) rfl
  all_goals exact h.alog _ (.inr rfl) rfl

/-! ## Arguments -/

theorem FullNumeral.head {base : Nat} {s : List U8} (h : FullNumeral base s) {c : U8}
    (none : digit base c = none) : s.head? ≠ some c := numeral_head h.numeral none

theorem FullNumeral.skip_blanks {base : Nat} {s : List U8} (h : FullNumeral base s) :
    s.dropWhile (· == blank) = s := by
  cases s with
  | nil => rfl
  | cons c rest =>
    refine List.dropWhile_cons_of_neg fun same => ?_
    rw [beq_iff_eq] at same
    exact h.head (digit_eq_none_of_isSpace (c := c) (by rw [same]; decide)) rfl

/-- The narrowed value of a full numeral is exact. -/
theorem FullNumeral.narrowed {base : Nat} {s : List U8} (h : FullNumeral base s) :
    (strtoul base s).setWidth 16 = BitVec.ofNat 16 (numeralValue base s) := by
  have fits := h.fits
  rw [strtoul_numeral h.numeral (by omega), BitVec.setWidth_ofNat_of_le (by decide)]

theorem skip_gap {gap : List U8} (spaces : Blanks gap) (rest : List U8) :
    (gap ++ rest).dropWhile (· == blank) = rest.dropWhile (· == blank) :=
  List.dropWhile_append_of_pos fun c inside => by simp [spaces c inside]

theorem dumpArg_numeral {gap mark digits : List U8} (spaces : Blanks gap)
    (marked : mark = [] ∨ mark = [dollar]) (numeral : FullNumeral 16 digits) :
    dumpArg (gap ++ (mark ++ digits)) = digits := by
  rw [dumpArg, skip_gap spaces]
  rcases marked with rfl | rfl
  · rw [List.nil_append, numeral.skip_blanks, skipDollar, if_neg (numeral.head rfl)]
  · rfl

/-- Every argument is blanks, perhaps a dollar sign, and what the code reads. -/
theorem dumpArg_split (rest : List U8) : ∃ gap mark, Blanks gap ∧ (mark = [] ∨ mark = [dollar]) ∧
    rest = gap ++ (mark ++ dumpArg rest) := by
  have gap : Blanks (rest.takeWhile (· == blank)) := fun c inside => by
    simpa using List.mem_takeWhile_imp inside
  have whole := List.takeWhile_append_dropWhile (p := (· == blank)) (l := rest)
  unfold dumpArg skipDollar
  cases arg : rest.dropWhile (· == blank) with
  | nil => exact ⟨_, [], gap, .inl rfl, by rw [arg] at whole; simpa using whole.symm⟩
  | cons c tail =>
    rw [arg] at whole
    by_cases mark : c = dollar
    · exact ⟨_, [dollar], gap, .inr rfl, by simpa [mark] using whole.symm⟩
    · exact ⟨_, [], gap, .inl rfl, by simpa [mark] using whole.symm⟩

theorem alogArg_split (rest : List U8) : ∃ gap, Blanks gap ∧
    blank :: rest = blank :: gap ++ alogArg (blank :: rest) := by
  refine ⟨rest.takeWhile (· == blank), fun c inside => by
    simpa using List.mem_takeWhile_imp inside, ?_⟩
  have whole := List.takeWhile_append_dropWhile (p := (· == blank)) (l := rest)
  show blank :: rest = blank :: (_ ++ rest.dropWhile (· == blank))
  rw [whole]

theorem alogArg_gap {gap rest : List U8} (spaces : Blanks gap)
    (kept : rest.dropWhile (· == blank) = rest) : alogArg (blank :: gap ++ rest) = rest := by
  have all : Blanks (blank :: gap) := List.forall_mem_cons.mpr ⟨rfl, spaces⟩
  rw [alogArg, skip_gap all, kept]

/-! ## Where parser and grammar agree -/

/-- Behind `dump` stands nothing or a whole numeral, behind `alog` and a space one of
the two words or a whole numeral; values up to 65535. -/
structure Regular (t : List U8) : Prop where
  dump : ∀ rest, t = ascii "dump" ++ rest → rest ≠ [] → FullNumeral 16 (dumpArg rest)
  alog : ∀ rest, t = ascii "alog" ++ blank :: rest → alogArg (blank :: rest) = ascii "reset" ∨
    alogArg (blank :: rest) = ascii "debug" ∨ FullNumeral 10 (alogArg (blank :: rest))

theorem parseAlog_type (rest : List U8) : (parseAlog rest).type ≠ .unknown := by
  unfold parseAlog
  split_ifs <;> exact CmdType.noConfusion

/-- A `dump` command of the grammar is `dump` alone or with a whole numeral. -/
theorem Command.dump_numeral {rest : List U8} {v : U16}
    (h : Command (ascii "dump" ++ rest) ⟨.dumpHex, v⟩) :
    rest = [] ∨ FullNumeral 16 (dumpArg rest) := by
  generalize whole : ascii "dump" ++ rest = t at h
  generalize command : (⟨.dumpHex, v⟩ : ParsedCmd) = cmd at h
  cases h with
  | keyword listed => exact absurd whole.symm (keyword_not_dump listed)
  | dump => exact .inl (List.append_cancel_left (whole.trans (List.append_nil _).symm))
  | dumpAt spaces marked numeral =>
    rw [List.append_cancel_left whole, dumpArg_numeral spaces marked numeral]
    exact .inr numeral
  | alog | alogReset _ | alogDebug _ | alogSlot _ _ => cases command

/-- A slot command of the grammar has a whole numeral. -/
theorem Command.slot_numeral {rest : List U8} {v : U16}
    (h : Command (ascii "alog" ++ rest) ⟨.alogSlot, v⟩) : FullNumeral 10 (alogArg rest) := by
  generalize whole : ascii "alog" ++ rest = t at h
  generalize command : (⟨.alogSlot, v⟩ : ParsedCmd) = cmd at h
  cases h with
  | keyword listed => exact absurd whole.symm (keyword_not_alog listed)
  | dump | dumpAt _ _ _ | alog | alogReset _ | alogDebug _ => cases command
  | alogSlot spaces numeral =>
    rw [List.append_cancel_left whole, alogArg_gap spaces numeral.skip_blanks]
    exact numeral

theorem Command.status_alone {rest : List U8} {v : U16}
    (h : Command (ascii "alog" ++ rest) ⟨.alogStatus, v⟩) : rest = [] := by
  generalize whole : ascii "alog" ++ rest = t at h
  generalize command : (⟨.alogStatus, v⟩ : ParsedCmd) = cmd at h
  cases h with
  | keyword listed => exact absurd whole.symm (keyword_not_alog listed)
  | dump | dumpAt _ _ _ | alogReset _ | alogDebug _ | alogSlot _ _ => cases command
  | alog => exact List.append_cancel_left (whole.trans (List.append_nil _).symm)

theorem parseDump_command {rest : List U8}
    (h : rest = [] ∨ FullNumeral 16 (dumpArg rest)) :
    Command (ascii "dump" ++ rest) (parseDump rest) := by
  rcases h with rfl | numeral
  · exact .dump
  · obtain ⟨gap, mark, spaces, marked, whole⟩ := dumpArg_split rest
    have command := Command.dumpAt spaces marked numeral
    rw [← whole] at command
    rwa [parseDump, numeral.narrowed]

theorem parseAlog_command {rest : List U8} (h : alogArg (blank :: rest) = ascii "reset" ∨
    alogArg (blank :: rest) = ascii "debug" ∨ FullNumeral 10 (alogArg (blank :: rest))) :
    Command (ascii "alog" ++ blank :: rest) (parseAlog (blank :: rest)) := by
  obtain ⟨gap, spaces, whole⟩ := alogArg_split rest
  rcases h with word | word | numeral
  · have command := Command.alogReset spaces
    rw [← word, ← whole] at command
    rw [parseAlog, word]
    exact command
  · have command := Command.alogDebug spaces
    rw [← word, ← whole] at command
    rw [parseAlog, word]
    exact command
  · have command := Command.alogSlot spaces numeral
    rw [← whole] at command
    have notWord {word : List U8} (head : ∀ c ∈ word.head?, digit 10 c = none)
        (nonempty : word ≠ []) : alogArg (blank :: rest) ≠ word := by
      intro same
      obtain ⟨c, tail, rfl⟩ := List.exists_cons_of_ne_nil nonempty
      exact numeral.head (head c rfl) (by rw [same]; rfl)
    rw [parseAlog, if_neg numeral.numeral.nonempty, if_neg (notWord (by decide) (by decide)),
      if_neg (notWord (by decide) (by decide)), numeral.narrowed]
    exact command

/-- On stripped lower-case text the parser is exact exactly on the regular ones. -/
theorem exact_parseText_iff (t : List U8) : Exact t (parseText t) ↔ Regular t := by
  constructor
  · intro exact_
    refine ⟨?_, ?_⟩
    · rintro rest rfl some
      rw [parseText_dump] at exact_
      rcases exact_ with command | unknown
      · exact command.dump_numeral.resolve_left some
      · exact absurd unknown.1 CmdType.noConfusion
    · rintro rest rfl
      rw [parseText_alog (.inr rfl)] at exact_
      rcases exact_ with command | unknown
      · unfold parseAlog at command
        split_ifs at command with empty reset debug
        · exact absurd command.status_alone (List.cons_ne_nil _ _)
        · exact .inl reset
        · exact .inr (.inl debug)
        · exact .inr (.inr command.slot_numeral)
      · exact absurd unknown.1 (parseAlog_type _)
  · intro regular
    rcases text_cases t with ⟨type, listed⟩ | ⟨rest, rfl⟩ | ⟨rest, ended, rfl⟩ | foreign
    · rw [parseText_keyword listed]
      exact .inl (.keyword listed)
    · rw [parseText_dump]
      exact .inl (parseDump_command ((em (rest = [])).imp_right (regular.dump rest rfl)))
    · rw [parseText_alog ended]
      rcases ended with rfl | spaced
      · exact .inl .alog
      · obtain ⟨tail, rfl⟩ : ∃ tail, rest = blank :: tail := List.head?_eq_some_iff.mp spaced
        exact .inl (parseAlog_command (regular.alog tail rfl))
    · rw [foreign.parseText]
      exact .inr ⟨rfl, foreign.not_command⟩

/-- The text of a line in lower case, stripped as the parser strips it. -/
def normalized (line : List U8) : List U8 := strip ((text line).map toLower)

theorem parseCmd_short {line : List U8} (short : (text line).length ≤ 63) :
    parseCmd (some line) = parseText (normalized line) := by
  rw [parseCmd, strToLower, List.take_of_length_le short, normalized]

/-- The parser accepts exactly its grammar on a line exactly if the line is regular. -/
theorem parser_exact_iff {line : List U8} (short : (text line).length ≤ 63) :
    Exact (normalized line) (parseCmd (some line)) ↔ Regular (normalized line) := by
  rw [parseCmd_short short]
  exact exact_parseText_iff (normalized line)

theorem parser_exact_iff_dump :
    Exact (normalized (ascii "DUMP $4000\r\n")) (parseCmd (some (ascii "DUMP $4000\r\n"))) ↔
      Regular (normalized (ascii "DUMP $4000\r\n")) :=
  parser_exact_iff (by decide)

/-- Five digits: the address is cut to 16 bits and dumped. -/
theorem wide_address_not_exact :
    (text (ascii "DUMP 14000")).length ≤ 63 ∧
      parseCmd (some (ascii "DUMP 14000")) = ⟨.dumpHex, 0x4000⟩ ∧
      ¬ Exact (normalized (ascii "DUMP 14000")) (parseCmd (some (ascii "DUMP 14000"))) := by
  refine ⟨by decide, by decide +kernel, fun exact_ => ?_⟩
  rw [parseCmd_short (by decide), exact_parseText_iff] at exact_
  have numeral := exact_.dump (ascii " 14000") (by decide) (by decide)
  exact absurd numeral.fits (by decide)

end MsxPulse.Firmware.UsbSerial
