import MsxPulse.Firmware.BootDiag.Causes
import MsxPulse.Firmware.Ui.BusPage

/-!
# The rows of the results pages

`ui_render` writes its footer to row 7 behind the page's own text. All pages but the last
stay above it. The page on the possible causes may use row 7, by `wrap_rows`; whether it does
depends on how many rows the findings take.
-/

namespace MsxPulse.Firmware.Ui

open Library Library.CString Oled BootDiagResult

/-! ## The rows of a line -/

/-- The rows that a line takes. -/
def lineRows (line : List U8) : Nat :=
  (Wrap.fill blank 21 [] ((Wrap.words blank line).map (List.take 21))).length

theorem lineRows_joined {ws : List (List U8)} (all : ∀ w ∈ ws, w ≠ [] ∧ blank ∉ w)
    (short : ∀ w ∈ ws, w.length ≤ 21) :
    lineRows (Wrap.joined blank ws) = Wrap.rowCount 21 0 (ws.map List.length) := by
  have whole : ws.map (List.take 21) = ws :=
    (List.map_congr_left fun w member => List.take_of_length_le (short w member)).trans (List.map_id ws)
  have none : ∀ w ∈ ([] : List (List U8)), w ≠ [] := nofun
  rw [lineRows, Wrap.words_joined all, whole, Wrap.length_fill none fun w member => (all w member).1]
  rfl

theorem names_joined (letter : U8) (ks : List Nat) {ws : List (List U8)} (some : ws ≠ []) :
    names letter ks ++ Wrap.joined blank ws =
      Wrap.joined blank (ks.map (fun k => letter :: decimal k) ++ ws) := by
  induction ks with
  | nil => rfl
  | cons k ks ih =>
    obtain ⟨next, rest, cons⟩ : ∃ next rest, ks.map (fun k => letter :: decimal k) ++ ws = next :: rest :=
      List.exists_cons_of_ne_nil (List.append_ne_nil_of_right_ne_nil _ some)
    simp only [names_cons, List.map_cons, List.cons_append, List.append_assoc, ih, cons,
      Wrap.joined_cons_cons]

/-- The letter and the digits of a line's name. -/
theorem length_name (letter : U8) {k : Nat} (inside : k < 16) :
    (letter :: decimal k).length + 1 = bitSize k :=
  length_decimal_bit k inside

/-- How many bits below ten a mask has, and how many from ten on. -/
theorem bits_split (mask : U32) : ∃ low high, bits mask 16 = low ++ high ∧ low.length ≤ 10 ∧
    high.length ≤ 6 ∧ (∀ k ∈ low, k < 10) ∧ ∀ k ∈ high, 10 ≤ k ∧ k < 16 := by
  refine ⟨bits mask 10, (List.range' 10 6).filter fun k => bitSet mask k, ?_, ?_, ?_, ?_, ?_⟩
  · have range : List.range 16 = List.range 10 ++ List.range' 10 6 := by decide
    rw [bits, range, List.filter_append]
    rfl
  · exact length_bits_le mask 10
  · exact List.length_filter_le _ _
  · exact fun k => lt_of_mem_bits
  · intro k member
    have inside := List.mem_range'_1.mp (List.mem_filter.mp member).1
    omega

/-- The rows of a line with the names of a data mask. -/
def dataRows (size : Nat) : Nat := if size = 0 then 0 else if size ≤ 3 then 2 else 3

/-- The rows of a line with the names of an address mask. -/
def addrRows (size : Nat) : Nat :=
  if size = 0 then 0 else if size ≤ 9 then 2 else if size ≤ 30 then 3 else if size ≤ 51 then 4 else 5

theorem rowCount_data : ∀ low ≤ 8, 0 < low →
    Wrap.rowCount 21 0 (List.replicate low 2 ++ [5, 2, 1, 6, 8, 2, 6]) = dataRows (3 * low) := by
  decide

theorem rowCount_addr : ∀ low ≤ 10, ∀ high ≤ 6, 0 < low + high →
    Wrap.rowCount 21 0 (List.replicate low 2 ++ List.replicate high 3 ++ [5, 1, 4, 2, 7, 6]) =
      addrRows (3 * low + 4 * high) := by
  decide +kernel

/-- The lengths of names, those of one digit first. -/
theorem lengths_names (letter : U8) {ks : List Nat} {size : Nat} (inside : ∀ k ∈ ks, k < 16)
    (same : ∀ k ∈ ks, bitSize k = size + 1) :
    (ks.map fun k => letter :: decimal k).map List.length = List.replicate ks.length size := by
  rw [List.map_map, List.eq_replicate_iff, List.length_map]
  refine ⟨rfl, List.forall_mem_map.mpr fun k member => ?_⟩
  have length := length_name letter (inside k member)
  rw [same k member] at length
  exact Nat.succ.inj length

theorem sum_bitSize {ks : List Nat} {size : Nat} (same : ∀ k ∈ ks, bitSize k = size) :
    (ks.map bitSize).sum = size * ks.length := by
  induction ks with
  | nil => rfl
  | cons k ks ih =>
    have first := same k List.mem_cons_self
    have rest := ih fun i member => same i (List.mem_cons_of_mem _ member)
    rw [List.map_cons, List.sum_cons, rest, first, List.length_cons, Nat.mul_succ, Nat.add_comm]

theorem bitSize_low {k : Nat} (low : k < 10) : bitSize k = 3 := if_pos low

theorem bitSize_high {k : Nat} (high : 10 ≤ k) : bitSize k = 4 := if_neg (Nat.not_lt_of_le high)

/-- A hint of findings whose words fit in a row. -/
structure Hint (hint : List U8) (words : List (List U8)) : Prop where
  joined : hint = Wrap.joined blank words
  some : words ≠ []
  each : ∀ w ∈ words, w ≠ [] ∧ blank ∉ w
  short : ∀ w ∈ words, w.length ≤ 21

/-- The rows of a line of names and a hint, from the lengths of its words. -/
theorem lineRows_names {letter : U8} (visible : letter ≠ blank) {ks : List Nat}
    (inside : ∀ k ∈ ks, k < 16) {hint : List U8} {words : List (List U8)} (h : Hint hint words) :
    lineRows (names letter ks ++ hint) = Wrap.rowCount 21 0
      ((ks.map fun k => letter :: decimal k).map List.length ++ words.map List.length) := by
  have each : ∀ w ∈ ks.map (fun k => letter :: decimal k) ++ words, w ≠ [] ∧ blank ∉ w := by
    refine List.forall_mem_append.mpr ⟨List.forall_mem_map.mpr fun k _ => ?_, h.each⟩
    exact ⟨List.cons_ne_nil _ _, blank_notMem_name visible k⟩
  have short : ∀ w ∈ ks.map (fun k => letter :: decimal k) ++ words, w.length ≤ 21 := by
    refine List.forall_mem_append.mpr ⟨List.forall_mem_map.mpr fun k member => ?_, h.short⟩
    have digits := length_decimal_le (n := k) (k := 2) (by decide) ((inside k member).trans (by decide))
    rw [List.length_cons]
    omega
  rw [h.joined, names_joined letter ks h.some, lineRows_joined each short, List.map_append]

theorem exists_bit {w : Nat} {mask : BitVec w} (narrow : w ≤ 32) (some : mask ≠ 0) :
    0 < (bits (mask.setWidth 32) w).length := by
  refine List.length_pos_iff.mpr fun none => some (BitVec.eq_of_getLsbD_eq fun k _ => ?_)
  have clear : ¬bitSet mask k = true := fun bit =>
    absurd ((mem_bits_iff narrow mask k).mpr bit) (none ▸ List.not_mem_nil)
  rw [bitSet_eq_getLsbD] at clear
  simpa using clear

theorem bitsSize_zero (nbits : Nat) : bitsSize 0 nbits = 0 := by
  have none : bits 0 nbits = [] := List.filter_eq_nil_iff.mpr fun k _ => by simp
  rw [bitsSize, none]
  rfl

/-! ## The rows of the findings -/

/-- Lines that take so many rows, two or more each. -/
structure TakesRows (ls : List (List U8)) (n : Nat) : Prop where
  sum : (ls.map lineRows).sum = n
  two : ∀ l ∈ ls, 2 ≤ lineRows l

namespace TakesRows

theorem nil : TakesRows [] 0 := ⟨rfl, nofun⟩

theorem singleton {l : List U8} {n : Nat} (rows : lineRows l = n) (two : 2 ≤ n) : TakesRows [l] n :=
  ⟨by rw [List.map_singleton, List.sum_singleton, rows], List.forall_mem_singleton.mpr (rows ▸ two)⟩

theorem append {ls ms : List (List U8)} {m n : Nat} (h : TakesRows ls m) (h' : TakesRows ms n) :
    TakesRows (ls ++ ms) (m + n) :=
  ⟨by rw [List.map_append, List.sum_append, h.sum, h'.sum], List.forall_mem_append.mpr ⟨h.two, h'.two⟩⟩

/-- The line of a mask, if there is one. -/
theorem mask (letter : U8) {w : Nat} {mask : BitVec w} (narrow : w ≤ 16) {hint : List U8}
    {rows : Nat → Nat} (none : rows 0 = 0) (two : ∀ size, 0 < size → 2 ≤ rows size)
    (line : 0 < (bits (mask.setWidth 32) w).length →
      lineRows (names letter (bits (mask.setWidth 32) w) ++ hint) =
        rows (bitsSize (mask.setWidth 32) w)) :
    TakesRows (bitsHint [letter] (mask.setWidth 32) w hint) (rows (bitsSize (mask.setWidth 32) w)) := by
  unfold bitsHint
  by_cases zero : mask = 0
  · have clear := (widen_eq_zero (show w ≤ 32 by omega) mask).mpr zero
    rw [if_pos clear, clear, bitsSize_zero, none]
    exact nil
  · have some := exists_bit (show w ≤ 32 by omega) zero
    have size : 0 < bitsSize (mask.setWidth 32) w := by
      obtain ⟨k, rest, split⟩ := List.exists_cons_of_length_pos some
      have first : 0 < bitSize k := by
        unfold bitSize
        split <;> decide
      rw [bitsSize, split, List.map_cons, List.sum_cons]
      omega
    rw [if_neg fun same => zero ((widen_eq_zero (show w ≤ 32 by omega) mask).mp same)]
    exact singleton (line some) (two _ size)

theorem data {mask : U8} {hint : List U8} {words : List (List U8)} (h : Hint hint words)
    (lengths : words.map List.length = [5, 2, 1, 6, 8, 2, 6]) :
    TakesRows (bitsHint (ascii "D") (mask.setWidth 32) 8 hint)
      (dataRows (bitsSize (mask.setWidth 32) 8)) := by
  apply TakesRows.mask (byteOf 'D') (by decide) rfl
  · intro size some
    rw [dataRows, if_neg some.ne']
    split <;> decide
  · intro some
    have low : ∀ k ∈ bits (mask.setWidth 32) 8, k < 10 := fun k member =>
      (lt_of_mem_bits member).trans (by decide)
    have inside : ∀ k ∈ bits (mask.setWidth 32) 8, k < 16 := fun k member =>
      (low k member).trans (by decide)
    rw [bitsSize, sum_bitSize fun k member => bitSize_low (low k member),
      lineRows_names (by decide) inside h,
      lengths_names _ inside fun k member => bitSize_low (low k member), lengths]
    exact rowCount_data _ (length_bits_le _ 8) some

theorem addr {mask : U16} {hint : List U8} {words : List (List U8)} (h : Hint hint words)
    (lengths : words.map List.length = [5, 1, 4, 2, 7, 6]) :
    TakesRows (bitsHint (ascii "A") (mask.setWidth 32) 16 hint)
      (addrRows (bitsSize (mask.setWidth 32) 16)) := by
  apply TakesRows.mask (byteOf 'A') (by decide) rfl
  · intro size some
    rw [addrRows, if_neg some.ne']
    split
    · decide
    · split
      · decide
      · split <;> decide
  · intro some
    have inside : ∀ k ∈ bits (mask.setWidth 32) 16, k < 16 := fun k => lt_of_mem_bits
    rw [lineRows_names (by decide) inside h, bitsSize, lengths]
    obtain ⟨low, high, split, few, fewer, below, above⟩ := bits_split (mask.setWidth 32)
    rw [split, List.length_append] at some
    rw [split, List.map_append, List.map_append, List.map_append, List.sum_append,
      lengths_names _ (fun k member => (below k member).trans (by decide))
        fun k member => bitSize_low (below k member),
      lengths_names _ (fun k member => (above k member).2) fun k member => bitSize_high (above k member).1,
      sum_bitSize fun k member => bitSize_low (below k member),
      sum_bitSize fun k member => bitSize_high (above k member).1]
    exact rowCount_addr _ few _ fewer some

theorem ite {c : Prop} [Decidable c] {l : List U8} {n : Nat} (rows : lineRows l = n) (two : 2 ≤ n) :
    TakesRows (if c then [l] else []) (if c then n else 0) := by
  split
  · exact singleton rows two
  · exact nil

end TakesRows

/-- The rows of an anomaly's line. -/
def hintRows : BootAnomaly → Nat
  | .clkAbsent => 3
  | .clkOutOfRange => 2
  | .resetStuck => 3
  | .noBusCycles => 3
  | .waitStuckLow => 2

/-- The rows of all findings. -/
def causeRows (r : BootDiagResult) : Nat :=
  (r.anomalies.map hintRows).sum + dataRows (bitsSize (r.stuckDataHi.setWidth 32) 8) +
    dataRows (bitsSize (r.stuckDataLo.setWidth 32) 8) +
    addrRows (bitsSize (r.stuckAddrMask.setWidth 32) 16) +
    (if r.busUndriven then 3 else 0) + (if r.cpFailed ≠ 0 then 2 else 0)

theorem lineRows_hint (a : BootAnomaly) : lineRows a.hint = hintRows a := by
  cases a <;> decide +kernel

theorem takesRows_anomalies (flagged : List BootAnomaly) :
    TakesRows (flagged.map BootAnomaly.hint) (flagged.map hintRows).sum := by
  induction flagged with
  | nil => exact .nil
  | cons a rest ih =>
    have two : 2 ≤ hintRows a := by cases a <;> decide
    rw [List.map_cons, List.map_cons, List.sum_cons]
    exact (TakesRows.singleton (lineRows_hint a) two).append ih

theorem hint_hi : Hint (ascii "stuck hi - buffer (LVC245) or driver")
    [ascii "stuck", ascii "hi", ascii "-", ascii "buffer", ascii "(LVC245)", ascii "or",
      ascii "driver"] := ⟨by decide, by decide, by decide, by decide⟩

theorem hint_lo : Hint (ascii "stuck lo - buffer (LVC245) or driver")
    [ascii "stuck", ascii "lo", ascii "-", ascii "buffer", ascii "(LVC245)", ascii "or",
      ascii "driver"] := ⟨by decide, by decide, by decide, by decide⟩

theorem hint_addr : Hint (ascii "stuck - line or address decode")
    [ascii "stuck", ascii "-", ascii "line", ascii "or", ascii "address", ascii "decode"] :=
  ⟨by decide, by decide, by decide, by decide⟩

theorem lineRows_opcode (v : U8) :
    lineRows (ascii "opcode mismatch 0x" ++ hex 2 v.toNat ++ ascii " - ROM or data path") = 2 := by
  have digits : (hex 2 v.toNat).length = 2 := length_hex (by decide) v.isLt
  have unbroken : blank ∉ ascii "0x" ++ hex 2 v.toNat := by
    intro inside
    rcases List.mem_append.mp inside with front | digit
    · exact absurd front (by decide)
    · exact absurd (visible_hex digit) (by decide)
  have split : ascii "opcode mismatch 0x" ++ hex 2 v.toNat ++ ascii " - ROM or data path" =
      Wrap.joined blank [ascii "opcode", ascii "mismatch", ascii "0x" ++ hex 2 v.toNat, ascii "-",
        ascii "ROM", ascii "or", ascii "data", ascii "path"] := by
    simp only [Wrap.joined_cons_cons, Wrap.joined_singleton]
    rfl
  rw [split, lineRows_joined]
  · simp only [List.map_cons, List.map_nil, List.length_append, digits]
    decide
  · simp only [List.forall_mem_cons]
    exact ⟨by decide, by decide, ⟨List.append_ne_nil_of_left_ne_nil (by decide) _, unbroken⟩, by decide,
      by decide, by decide, by decide, by decide, nofun⟩
  · simp only [List.forall_mem_cons, List.length_append, digits]
    decide

theorem takesRows_hintLines (r : BootDiagResult) : TakesRows r.hintLines (causeRows r) :=
  ((((((takesRows_anomalies r.anomalies).append (.data hint_hi rfl)).append
    (.data hint_lo rfl)).append (.addr hint_addr rfl)).append
      (.ite (by decide +kernel) (by decide))).append (.ite (lineRows_opcode r.cpFailed) (by decide)))

/-! ## The page on the possible causes -/

theorem rows_unlines {ls : List (List U8)} (plain : ∀ l ∈ ls, Plain l) (t : List U8) :
    (Wrap.rows blank lf 21 [] (unlines ls ++ t)).length =
      (ls.map lineRows).sum + (Wrap.rows blank lf 21 [] t).length := by
  induction ls with
  | nil => exact (Nat.zero_add _).symm
  | cons l ls ih =>
    have first : lf ∉ l := fun inside => plain l List.mem_cons_self lf inside rfl
    rw [unlines_cons, List.append_assoc, List.cons_append, Wrap.rows_line first, List.length_append,
      ih fun m member => plain m (List.mem_cons_of_mem _ member), List.map_cons, List.sum_cons,
      Nat.add_assoc]
    rfl

theorem lineRows_fallback (r : BootDiagResult) : lineRows r.fallbackLine ≤ 6 := by
  unfold fallbackLine
  split
  · decide +kernel
  · unfold BootPhase.nameAt
    cases BootPhase.all.find? fun p => (p.index : Int) = r.firstMissing with
    | none => decide +kernel
    | some p => cases p <;> decide +kernel

theorem two_mul_le_sum {ls : List (List U8)} (two : ∀ l ∈ ls, 2 ≤ lineRows l) :
    2 * ls.length ≤ (ls.map lineRows).sum := by
  induction ls with
  | nil => exact Nat.le_refl _
  | cons l ls ih =>
    have first := two l List.mem_cons_self
    have rest := ih fun m member => two m (List.mem_cons_of_mem _ member)
    rw [List.length_cons, List.map_cons, List.sum_cons]
    omega

/-- What the array has of the findings takes six rows at most if and only if the findings do. -/
theorem rows_causes (r : BootDiagResult) (causes : CharArray 400) :
    (Wrap.rows blank lf 21 [] (text (r.possibleCauses causes.mem).mem)).length ≤ 6 ↔
      causeRows r ≤ 6 := by
  have count := takesRows_hintLines r
  have plain : ∀ l ∈ r.hintLines, Plain l := fun l member => (r.printable_hintLines l member).plain
  have bits := length_bits_le (r.stuckAddrMask.setWidth 32) 16
  have short := r.short_hintLines (n := 94) (by decide) (by omega)
  rw [held_causes, fullCauses_eq, causeLines]
  by_cases none : r.hintLines = []
  · have nothing : causeRows r = 0 := by
      rw [← count.sum, none]
      rfl
    rw [if_pos none, List.take_of_length_le r.fallback_held, ← List.append_nil (unlines _),
      rows_unlines (List.forall_mem_singleton.mpr r.printable_fallbackLine.plain), nothing,
      List.map_singleton, List.sum_singleton]
    exact iff_of_true (lineRows_fallback r) (by decide)
  · rw [if_neg none]
    rcases Nat.lt_or_ge r.hintLines.length 4 with few | many
    · -- Three lines fit in the array.
      have size := length_unlines_le short
      rw [List.take_of_length_le (by omega), ← List.append_nil (unlines _), rows_unlines plain, count.sum]
      rfl
    · -- Four lines do, and take eight rows.
      obtain ⟨first, rest, split, four⟩ :
          ∃ first rest, r.hintLines = first ++ rest ∧ first.length = 4 :=
        ⟨_, _, (List.take_append_drop 4 r.hintLines).symm, List.length_take_of_le many⟩
      have listed : ∀ l ∈ first, l ∈ r.hintLines := fun l member =>
        split ▸ List.mem_append_left rest member
      have size := length_unlines_le fun l member => short l (listed l member)
      have rows := two_mul_le_sum fun l member => count.two l (listed l member)
      have total := count.sum
      rw [split, List.map_append, List.sum_append] at total
      rw [split, unlines_append, List.take_append, List.take_of_length_le (by omega),
        rows_unlines fun l member => plain l (listed l member)]
      omega

variable {l : Locals} {r : BootDiagResult}

/-- The causes page goes down from row 1, to row 7 at most. -/
theorem pages_causes : (renderDiagCauses l r).map Puts.page =
    List.range' 1 (min 7
      (Wrap.rows blank lf 21 [] (text (r.possibleCauses l.causes.mem).mem)).length) := by
  rw [renderDiagCauses, wrapRows_eq l.wrap _ (by decide), placeRows, place_pages, List.length_map,
    List.length_take]

/-! ## All pages -/

theorem length_busRows (l : Locals) (r : BootDiagResult) : (busRows l r).length ≤ 5 := by
  have one {c : Prop} [Decidable c] (row : List U8) : (if c then [] else [row]).length ≤ 1 := by
    split <;> simp
  have first := one (c := r.stuckDataHi = 0) (l.row (ascii "Dhi:" ++ text (bufHi l r)))
  have second := one (c := r.stuckDataLo = 0) (l.row (ascii "Dlo:" ++ text (bufLo l r)))
  have third := one (c := r.stuckAddrMask = 0) (l.row (ascii "Astk:" ++ text (bufAddr l r)))
  have last := one (c := r.cpFailed = 0) (l.row (ascii "opcode fail 0x" ++ hex 2 r.cpFailed.toNat))
  have fourth : (if r.busUndriven then [ascii "bus not driven"] else []).length ≤ 1 := by
    split <;> decide
  simp only [busRows, List.length_append]
  omega

theorem page_of_mem_bus {c : Puts} (h : c ∈ renderDiagBus l r) : 1 ≤ c.page ∧ c.page ≤ 5 := by
  unfold renderDiagBus at h
  split at h
  · have inside := page_of_mem_place h
    have few := length_busRows l r
    omega
  · rcases List.mem_cons.mp h with rfl | verified
    · decide
    · split at verified
      · exact absurd verified List.not_mem_nil
      · rw [List.mem_singleton.mp verified]
        decide

theorem page_of_mem_anomalies {c : Puts} (h : c ∈ renderDiagAnomalies r) :
    1 ≤ c.page ∧ c.page ≤ 5 := by
  unfold renderDiagAnomalies at h
  split at h
  · rw [List.mem_singleton.mp h]
    decide
  · have inside := page_of_mem_place h
    have few : r.anomalies.length ≤ 5 := List.length_filter_le _ BootAnomaly.all
    rw [List.length_take, List.length_map] at inside
    omega

theorem page_of_mem_phases {lo hi : Nat} {c : Puts} (h : c ∈ renderDiagPhasesRange l r lo hi)
    (few : (BootPhase.all.filter fun p => lo ≤ p.index ∧ p.index ≤ hi).length ≤ 5) :
    1 ≤ c.page ∧ c.page ≤ 5 := by
  have inside := page_of_mem_place h
  rw [List.length_map] at inside
  omega

/-- The pages before the last one end above row 6. -/
theorem page_of_mem_early {page : Nat} (early : page < 5) {c : Puts}
    (h : c ∈ renderDiagPage l r page) : 1 ≤ c.page ∧ c.page ≤ 5 := by
  match page, early with
  | 0, _ =>
    have inside := page_of_mem_place h
    exact ⟨inside.1, Nat.le_of_lt_succ inside.2⟩
  | 1, _ => exact page_of_mem_bus h
  | 2, _ => exact page_of_mem_anomalies h
  | 3, _ => exact page_of_mem_phases h (by decide)
  | 4, _ => exact page_of_mem_phases h (by decide)

theorem page_of_mem_last {page : Nat} (last : 5 ≤ page) :
    renderDiagPage l r page = renderDiagCauses l r := by
  match page, last with
  | page + 5, _ => rfl

/-- The page's own text is not hidden: it is in rows 1 to 6, inside the display, and `ui_render`
leaves each of its rows as the renderer does. -/
structure Unhidden (l : Locals) (r : BootDiagResult) (page : Nat) : Prop where
  rows : ∀ c ∈ renderDiagPage l r page, 1 ≤ c.page ∧ c.page ≤ 6
  inside : ∀ c ∈ renderDiagPage l r page, c.page < 8
  kept : ∀ (fb : Framebuffer) (blink : Bool) (p : Fin 8), (∃ c ∈ renderDiagPage l r page, c.page = p) →
    renderResults l r fb blink page p =
      draw (draw (fbPutglyph fb 0 0 (if blink then hbFull else hbHollow)) (resultsTitle l page))
        (renderDiagPage l r page) p

theorem unhidden_of_rows {page : Nat}
    (rows : ∀ c ∈ renderDiagPage l r page, 1 ≤ c.page ∧ c.page ≤ 6) : Unhidden l r page := by
  refine ⟨rows, fun c member => ?_, fun fb blink p used => ?_⟩
  · have inside := rows c member
    omega
  · obtain ⟨c, member, same⟩ := used
    have inside := rows c member
    have footer : (p : Int) ≠ resultsFooter.page := by
      show (p : Int) ≠ 7
      omega
    rw [renderResults, draw_append, draw_append, draw_cons]
    exact fbPuts_other footer _ _ _

theorem rows_of_causes :
    (∀ c ∈ renderDiagCauses l r, 1 ≤ c.page ∧ c.page ≤ 6) ↔ causeRows r ≤ 6 := by
  have pages := pages_causes (l := l) (r := r)
  rw [← rows_causes r l.causes]
  constructor
  · intro inside
    refine Nat.le_of_not_lt fun many => ?_
    have seventh : 7 ∈ (renderDiagCauses l r).map Puts.page := by
      rw [pages, List.mem_range'_1]
      omega
    obtain ⟨c, member, last⟩ := List.mem_map.mp seventh
    have above := (inside c member).2
    omega
  · intro few c member
    have inside := pages ▸ List.mem_map_of_mem (f := Puts.page) member
    rw [List.mem_range'_1] at inside
    omega

theorem few_of_unhidden {page : Nat} (h : Unhidden l r page) (last : 5 ≤ page) : causeRows r ≤ 6 :=
  rows_of_causes.mp fun c member => h.rows c (page_of_mem_last last ▸ member)

/-- Only the page on the possible causes can lose text, and it does if and only if the findings
take more than six rows. -/
theorem unhidden_iff (l : Locals) (r : BootDiagResult) (page : Nat) :
    Unhidden l r page ↔ (5 ≤ page → causeRows r ≤ 6) := by
  refine ⟨few_of_unhidden, fun few => unhidden_of_rows fun c member => ?_⟩
  rcases Nat.lt_or_ge page 5 with early | last
  · have inside := page_of_mem_early early member
    omega
  · rw [page_of_mem_last last] at member
    exact rows_of_causes.mpr (few last) c member

/-- The last page of a round with findings of every kind runs into the footer. -/
theorem everyFinding_hidden : ¬∀ (l : Locals) (events : List BootDiag.PassEvent) (page : Nat),
    (BootDiag.Observed.machine.final BootDiag.Observed.initial events).diag.phase = .done →
      page < nDiagPages →
        Unhidden l (BootDiag.Observed.machine.final BootDiag.Observed.initial events).diag.result
          page := by
  intro all
  have hidden := all zeroed BootDiag.Observed.everyFinding 5 (by decide +kernel) (by decide)
  exact absurd (few_of_unhidden hidden (by decide)) (by decide +kernel)

end MsxPulse.Firmware.Ui
