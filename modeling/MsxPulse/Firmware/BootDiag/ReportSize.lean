import MsxPulse.Firmware.BootDiag.Report

/-!
# How large a report is

The number of its lines, the length of each and the length of the whole, all from the
fields of the result. Only the line for a clean boot is longer than 77 characters, if
no more than ten address bits are stuck.
-/

namespace MsxPulse.Firmware.BootDiagResult

open Library CString

/-! ## Printable lines -/

theorem printable_nameAt {names : BootPhase → List U8} (printable : ∀ p, Printable (names p))
    (value : Int) : Printable (BootPhase.nameAt names value) := by
  unfold BootPhase.nameAt
  cases BootPhase.all.find? fun p => (p.index : Int) = value with
  | none =>
    show Printable (ascii "?")
    exact printable_ascii rfl
  | some p => exact printable p

theorem printable_name (p : BootPhase) : Printable p.name := by
  cases p <;> exact printable_ascii rfl

theorem printable_shortName (p : BootPhase) : Printable p.shortName := by
  cases p <;> exact printable_ascii rfl

theorem printable_bitsHint {letter hint : List U8} (hl : Printable letter) (hh : Printable hint)
    (mask : U32) (nbits : Nat) : ∀ l ∈ bitsHint letter mask nbits hint, Printable l := by
  unfold bitsHint
  split
  · simp
  · simp only [List.mem_singleton, forall_eq]
    refine .append (.flatten ?_) hh
    simp only [List.forall_mem_map]
    exact fun i _ => (hl.append (printable_decimal i)).append (printable_ascii rfl)

theorem printable_bitsLine {pfx letter : List U8} (hp : Printable pfx) (hl : Printable letter)
    (mask : U32) (nbits : Nat) : ∀ l ∈ bitsLine pfx letter mask nbits, Printable l := by
  unfold bitsLine
  split
  · simp
  · simp only [List.mem_singleton, forall_eq]
    refine hp.append (.flatten ?_)
    simp only [List.forall_mem_map]
    exact fun i _ => ((printable_ascii rfl).append hl).append (printable_decimal i)

/-- A line that stands there under a condition. -/
theorem printable_ite {c : Prop} [Decidable c] {l : List U8} (h : Printable l) :
    ∀ m ∈ (if c then [l] else []), Printable m := by
  split
  · simpa using h
  · simp

theorem printable_hintLines (r : BootDiagResult) : ∀ l ∈ r.hintLines, Printable l := by
  have letter : Printable (ascii "D") := printable_ascii rfl
  unfold hintLines
  simp only [List.forall_mem_append, List.forall_mem_map]
  refine ⟨⟨⟨⟨⟨fun a _ => ?_, ?_⟩, ?_⟩, ?_⟩, ?_⟩, ?_⟩
  · cases a <;> exact printable_ascii rfl
  · exact printable_bitsHint letter (printable_ascii rfl) _ _
  · exact printable_bitsHint letter (printable_ascii rfl) _ _
  · exact printable_bitsHint (printable_ascii rfl) (printable_ascii rfl) _ _
  · exact printable_ite (printable_ascii rfl)
  · exact printable_ite (((printable_ascii rfl).append (printable_hex _ _)).append
      (printable_ascii rfl))

theorem printable_fallbackLine (r : BootDiagResult) : Printable r.fallbackLine := by
  unfold fallbackLine
  split
  · exact printable_ascii rfl
  · exact ((printable_ascii rfl).append (printable_nameAt printable_shortName _)).append
      (printable_ascii rfl)

theorem printable_causeLines (r : BootDiagResult) : ∀ l ∈ r.causeLines, Printable l := by
  unfold causeLines
  split
  · simpa using r.printable_fallbackLine
  · exact r.printable_hintLines

theorem printable_busLines (r : BootDiagResult) : ∀ l ∈ r.busLines, Printable l := by
  have letter : Printable (ascii "D") := printable_ascii rfl
  unfold busLines
  split
  · simp only [List.mem_singleton, forall_eq]
    exact printable_ascii rfl
  · simp only [List.forall_mem_append]
    refine ⟨⟨⟨⟨?_, ?_⟩, ?_⟩, ?_⟩, ?_⟩
    · exact printable_bitsLine (printable_ascii rfl) letter _ _
    · exact printable_bitsLine (printable_ascii rfl) letter _ _
    · exact printable_bitsLine (printable_ascii rfl) (printable_ascii rfl) _ _
    · exact printable_ite (printable_ascii rfl)
    · exact printable_ite ((printable_ascii rfl).append (printable_hex _ _))

theorem printable_anomalyLines (r : BootDiagResult) : ∀ l ∈ r.anomalyLines, Printable l := by
  unfold anomalyLines
  split
  · simp only [List.forall_mem_cons, List.forall_mem_map]
    refine ⟨printable_ascii rfl, fun a _ => (printable_ascii rfl).append ?_⟩
    cases a <;> exact printable_ascii rfl
  · simp

theorem printable_next (r : BootDiagResult) : Printable r.next := by
  unfold next
  split
  · exact printable_ascii rfl
  · exact printable_nameAt printable_name _

theorem printable_phaseLines (r : BootDiagResult) : ∀ l ∈ r.phaseLines, Printable l := by
  have nothing : Printable [] := nofun
  unfold phaseLines
  simp only [List.forall_mem_append, List.forall_mem_map, List.forall_mem_cons,
    List.not_mem_nil, false_imp_iff, implies_true, and_true]
  refine ⟨⟨nothing, (printable_ascii rfl).append r.printable_next, printable_ascii rfl⟩,
    fun p _ => ?_⟩
  refine (((printable_ascii rfl).append (printable_shortName p)).append
    (printable_ascii rfl)).append ?_
  cases p.statusOf r.phaseFlags r.firstMissing <;> exact printable_ascii rfl

theorem printable_titleLines (r : BootDiagResult) : ∀ l ∈ r.titleLines, Printable l := by
  have nothing : Printable [] := nofun
  unfold titleLines
  simp only [List.forall_mem_cons, List.not_mem_nil, false_imp_iff, implies_true, and_true]
  refine ⟨((((printable_ascii rfl).append (printable_decimal _)).append (printable_ascii rfl)).append
    ?_).append (printable_ascii rfl), nothing, printable_ascii rfl⟩
  split
  · exact nothing
  · exact printable_ascii rfl

theorem printable_lastLine (r : BootDiagResult) : Printable r.lastLine := by
  have answer (b : Bool) : Printable (yesNo b) := by cases b <;> exact printable_ascii rfl
  exact (((printable_ascii rfl).append (answer _)).append (printable_ascii rfl)).append (answer _)

/-- All lines of the report are printable, if those of its causes are. -/
theorem printable_bodyLines (r : BootDiagResult) {causes : List (List U8)}
    (printable : ∀ l ∈ causes, Printable l) : ∀ l ∈ r.bodyLines causes, Printable l := by
  have nothing : Printable [] := nofun
  unfold bodyLines
  simp only [List.forall_mem_append, List.forall_mem_map, List.forall_mem_cons,
    List.not_mem_nil, false_imp_iff, implies_true, and_true]
  exact ⟨⟨⟨⟨⟨r.printable_titleLines, fun l inside => (printable_ascii rfl).append (printable l inside)⟩,
    nothing, ((printable_ascii rfl).append (printable_decimal _)).append (printable_ascii rfl)⟩,
    r.printable_busLines⟩, r.printable_anomalyLines⟩, r.printable_phaseLines⟩

theorem printable_reportLines (r : BootDiagResult) : ∀ l ∈ r.reportLines, Printable l := by
  unfold reportLines
  simp only [List.forall_mem_append, List.forall_mem_singleton]
  exact ⟨r.printable_bodyLines r.printable_causeLines, r.printable_lastLine⟩

/-! ## How many lines -/

/-- How many kinds of findings the bus integrity section reports. -/
def findings (r : BootDiagResult) : Nat :=
  (if r.stuckDataHi = 0 then 0 else 1) + (if r.stuckDataLo = 0 then 0 else 1) +
    (if r.stuckAddrMask = 0 then 0 else 1) + (if r.busUndriven then 1 else 0) +
    (if r.cpFailed = 0 then 0 else 1)

theorem widen_eq_zero {w : Nat} (narrow : w ≤ 32) (mask : BitVec w) :
    mask.setWidth 32 = 0 ↔ mask = 0 := by
  constructor
  · intro zero
    have values := congrArg BitVec.toNat zero
    rw [BitVec.toNat_setWidth_of_le narrow] at values
    exact BitVec.eq_of_toNat_eq values
  · rintro rfl
    simp

theorem length_bitsHint (letter : List U8) (mask : U32) (nbits : Nat) (hint : List U8) :
    (bitsHint letter mask nbits hint).length = if mask = 0 then 0 else 1 := by
  unfold bitsHint
  split <;> rfl

theorem length_bitsLine (pfx letter : List U8) (mask : U32) (nbits : Nat) :
    (bitsLine pfx letter mask nbits).length = if mask = 0 then 0 else 1 := by
  unfold bitsLine
  split <;> rfl

/-- A line that stands there under a condition. -/
theorem length_ite {c : Prop} [Decidable c] (l : List U8) :
    (if c then [l] else []).length = if c then 1 else 0 := by
  split <;> rfl

theorem length_ite_else {c : Prop} [Decidable c] (l : List U8) :
    (if c then [] else [l]).length = if c then 0 else 1 := by
  split <;> rfl

theorem length_hintLines (r : BootDiagResult) :
    r.hintLines.length = r.anomalies.length + r.findings := by
  unfold hintLines findings
  simp only [List.length_append, List.length_map, length_bitsHint, ne_eq, ite_not, length_ite,
    length_ite_else, widen_eq_zero (show 8 ≤ 32 by decide), widen_eq_zero (show 16 ≤ 32 by decide)]
  omega

theorem findings_eq_zero_iff (r : BootDiagResult) :
    r.findings = 0 ↔ r.stuckDataHi = 0 ∧ r.stuckDataLo = 0 ∧ r.stuckAddrMask = 0 ∧
      r.busUndriven = false ∧ r.cpFailed = 0 := by
  unfold findings
  simp only [Nat.add_eq_zero_iff, ite_eq_left_iff, ite_eq_right_iff, Nat.one_ne_zero, imp_false,
    Decidable.not_not, Bool.not_eq_true, and_assoc]

theorem length_busLines (r : BootDiagResult) : r.busLines.length = max r.findings 1 := by
  unfold busLines
  split
  · rw [(r.findings_eq_zero_iff).mpr ‹_›]
    rfl
  · have some : r.findings ≠ 0 := fun none => ‹¬_› (r.findings_eq_zero_iff.mp none)
    have size : max r.findings 1 = r.findings := by omega
    rw [size]
    unfold findings
    simp only [List.length_append, length_bitsLine, ne_eq, ite_not, length_ite, length_ite_else,
      widen_eq_zero (show 8 ≤ 32 by decide), widen_eq_zero (show 16 ≤ 32 by decide)]

theorem length_causeLines (r : BootDiagResult) :
    r.causeLines.length = max (r.anomalies.length + r.findings) 1 := by
  rw [← length_hintLines]
  unfold causeLines
  split
  · rw [‹r.hintLines = []›]
    rfl
  · have some : 0 < r.hintLines.length := List.length_pos_iff.mpr ‹_›
    omega

/-- Eighteen lines, and those for the findings. -/
theorem length_reportLines (r : BootDiagResult) :
    r.reportLines.length = 18 + max (r.anomalies.length + r.findings) 1 + max r.findings 1 +
      if r.anomalyFlags = 0 then 0 else r.anomalies.length + 1 := by
  have anomalies : r.anomalyLines.length =
      if r.anomalyFlags = 0 then 0 else r.anomalies.length + 1 := by
    unfold anomalyLines
    rw [apply_ite List.length, ite_not, List.length_cons, List.length_map]
    rfl
  unfold reportLines bodyLines titleLines phaseLines
  simp only [List.length_append, List.length_cons, List.length_nil, List.length_map, anomalies,
    length_busLines, length_causeLines, BootPhase.all]
  omega

/-! ## How long each line is -/

/-- What one bit adds to a line: a letter, its number and a blank. -/
def bitSize (i : Nat) : Nat := if i < 10 then 3 else 4

def bitsSize (mask : U32) (nbits : Nat) : Nat := ((bits mask nbits).map bitSize).sum

theorem length_decimal_bit : ∀ i < 16, (decimal i).length + 2 = bitSize i := by
  decide

theorem lt_of_mem_bits {mask : U32} {nbits i : Nat} (h : i ∈ bits mask nbits) : i < nbits :=
  List.mem_range.mp (List.mem_filter.mp h).1

theorem length_named_bits {f : Nat → List U8} {mask : U32} {nbits : Nat} (inside : nbits ≤ 16)
    (size : ∀ i, (f i).length = (decimal i).length + 2) :
    (((bits mask nbits).map f).flatten).length = bitsSize mask nbits := by
  rw [List.length_flatten, List.map_map, bitsSize]
  refine congrArg List.sum (List.map_congr_left fun i member => ?_)
  have below := lt_of_mem_bits member
  exact (size i).trans (length_decimal_bit i (by omega))

theorem length_bitHint {letter : List U8} (one : letter.length = 1) {mask : U32} {nbits : Nat}
    (inside : nbits ≤ 16) :
    (((bits mask nbits).map fun i => letter ++ decimal i ++ ascii " ").flatten).length =
      bitsSize mask nbits := by
  refine length_named_bits inside fun i => ?_
  rw [List.length_append, List.length_append, one, length_ascii (n := 1) rfl]
  omega

theorem length_bitName {letter : List U8} (one : letter.length = 1) {mask : U32} {nbits : Nat}
    (inside : nbits ≤ 16) :
    (((bits mask nbits).map fun i => ascii " " ++ letter ++ decimal i).flatten).length =
      bitsSize mask nbits := by
  refine length_named_bits inside fun i => ?_
  rw [List.length_append, List.length_append, one, length_ascii (n := 1) rfl]
  omega

theorem bitsSize_le (mask : U32) (nbits : Nat) :
    bitsSize mask nbits ≤ 4 * (bits mask nbits).length := by
  unfold bitsSize
  induction bits mask nbits with
  | nil => exact Nat.le_refl _
  | cons i rest ih =>
    have one : bitSize i ≤ 4 := by
      unfold bitSize
      split <;> omega
    rw [List.map_cons, List.sum_cons, List.length_cons]
    omega

theorem length_bits_le (mask : U32) (nbits : Nat) : (bits mask nbits).length ≤ nbits := by
  have all := List.length_filter_le (fun i => bitSet mask i) (List.range nbits)
  rwa [List.length_range] at all

theorem length_shortName_le (p : BootPhase) : p.shortName.length ≤ 15 := by
  cases p <;> exact (length_ascii rfl).trans_le (by decide)

theorem length_name_le (p : BootPhase) : p.name.length ≤ 19 := by
  cases p <;> exact (length_ascii rfl).trans_le (by decide)

theorem length_nameAt_le {names : BootPhase → List U8} {n : Nat} (some : 1 ≤ n)
    (short : ∀ p, (names p).length ≤ n) (value : Int) :
    (BootPhase.nameAt names value).length ≤ n := by
  unfold BootPhase.nameAt
  cases BootPhase.all.find? fun p => (p.index : Int) = value with
  | none => exact some
  | some p => exact short p

theorem short_ite {c : Prop} [Decidable c] {l : List U8} {n : Nat} (h : l.length ≤ n) :
    ∀ m ∈ (if c then [l] else []), m.length ≤ n := by
  split
  · simpa using h
  · simp

theorem short_bitsHint {letter hint : List U8} (one : letter.length = 1) {mask : U32}
    {nbits n : Nat} (inside : nbits ≤ 16) (short : 4 * (bits mask nbits).length + hint.length ≤ n) :
    ∀ l ∈ bitsHint letter mask nbits hint, l.length ≤ n := by
  unfold bitsHint
  split
  · simp
  · have size := bitsSize_le mask nbits
    simp only [List.mem_singleton, forall_eq]
    rw [List.length_append, length_bitHint one inside]
    omega

theorem short_bitsLine {pfx letter : List U8} (one : letter.length = 1) {mask : U32}
    {nbits n : Nat} (inside : nbits ≤ 16) (short : pfx.length + 4 * nbits ≤ n) :
    ∀ l ∈ bitsLine pfx letter mask nbits, l.length ≤ n := by
  unfold bitsLine
  split
  · simp
  · have size := bitsSize_le mask nbits
    have count := length_bits_le mask nbits
    simp only [List.mem_singleton, forall_eq]
    rw [List.length_append, length_bitName one inside]
    omega

theorem short_hintLines (r : BootDiagResult) {n : Nat} (long : 68 ≤ n)
    (few : 4 * (bits (r.stuckAddrMask.setWidth 32) 16).length + 30 ≤ n) :
    ∀ l ∈ r.hintLines, l.length ≤ n := by
  have letter : (ascii "D").length = 1 := length_ascii rfl
  have hi := length_bits_le (r.stuckDataHi.setWidth 32) 8
  have lo := length_bits_le (r.stuckDataLo.setWidth 32) 8
  unfold hintLines
  simp only [List.forall_mem_append, List.forall_mem_map]
  refine ⟨⟨⟨⟨⟨fun a _ => ?_, ?_⟩, ?_⟩, ?_⟩, ?_⟩, ?_⟩
  · cases a <;> exact ((length_ascii rfl).trans_le (by decide)).trans long
  · refine short_bitsHint letter (by decide) ?_
    rw [length_ascii (n := 36) rfl]
    omega
  · refine short_bitsHint letter (by decide) ?_
    rw [length_ascii (n := 36) rfl]
    omega
  · refine short_bitsHint (length_ascii rfl) (by decide) ?_
    rw [length_ascii (n := 30) rfl]
    omega
  · exact short_ite ((length_ascii (n := 53) rfl).trans_le (by omega))
  · refine short_ite ?_
    rw [List.length_append, List.length_append, length_hex (by decide) r.cpFailed.isLt,
      length_ascii (n := 18) rfl, length_ascii (n := 19) rfl]
    omega

theorem length_fallbackLine (r : BootDiagResult) : r.fallbackLine.length =
    if r.complete then 81 else 32 + (BootPhase.nameAt BootPhase.shortName r.firstMissing).length := by
  unfold fallbackLine
  split
  · exact length_ascii rfl
  · rw [List.length_append, List.length_append, length_ascii (n := 20) rfl,
      length_ascii (n := 12) rfl]
    omega

/-- The line for a clean boot is the only long one among the causes. -/
theorem short_causeLines (r : BootDiagResult)
    (few : (bits (r.stuckAddrMask.setWidth 32) 16).length ≤ 10)
    (unclean : ¬(r.hintLines = [] ∧ r.complete = true)) :
    ∀ l ∈ r.causeLines, l.length ≤ 75 := by
  unfold causeLines
  split
  · have stalled : ¬r.complete = true := fun complete => unclean ⟨‹_›, complete⟩
    have name := length_nameAt_le (by decide) length_shortName_le r.firstMissing
    simp only [List.mem_singleton, forall_eq]
    rw [r.length_fallbackLine, if_neg stalled]
    omega
  · exact r.short_hintLines (by decide) (by omega)

theorem short_busLines (r : BootDiagResult) : ∀ l ∈ r.busLines, l.length ≤ 77 := by
  have letter : (ascii "D").length = 1 := length_ascii rfl
  unfold busLines
  split
  · simp only [List.mem_singleton, forall_eq]
    exact (length_ascii rfl).trans_le (by decide)
  · simp only [List.forall_mem_append]
    refine ⟨⟨⟨⟨?_, ?_⟩, ?_⟩, ?_⟩, ?_⟩
    · exact short_bitsLine letter (by decide) (by rw [length_ascii (n := 16) rfl]; decide)
    · exact short_bitsLine letter (by decide) (by rw [length_ascii (n := 15) rfl]; decide)
    · exact short_bitsLine (length_ascii rfl) (by decide)
        (by rw [length_ascii (n := 11) rfl]; decide)
    · exact short_ite ((length_ascii rfl).trans_le (by decide))
    · refine short_ite ?_
      rw [List.length_append, length_hex (by decide) r.cpFailed.isLt, length_ascii (n := 33) rfl]
      decide

theorem short_anomalyLines (r : BootDiagResult) : ∀ l ∈ r.anomalyLines, l.length ≤ 77 := by
  unfold anomalyLines
  split
  · simp only [List.forall_mem_cons, List.forall_mem_map]
    refine ⟨(length_ascii rfl).trans_le (by decide), fun a _ => ?_⟩
    have name : a.name.length ≤ 15 := by
      cases a <;> exact (length_ascii rfl).trans_le (by decide)
    rw [List.length_append, length_ascii (n := 2) rfl]
    omega
  · simp

theorem length_next_le (r : BootDiagResult) : r.next.length ≤ 19 := by
  unfold next
  split
  · exact (length_ascii rfl).trans_le (by decide)
  · exact length_nameAt_le (by decide) length_name_le r.firstMissing

theorem length_st_le (status : BootPhaseStatus) : (st status).length ≤ 7 := by
  cases status <;> exact (length_ascii rfl).trans_le (by decide)

theorem length_yesNo_le (b : Bool) : (yesNo b).length ≤ 3 := by
  cases b <;> exact (length_ascii rfl).trans_le (by decide)

theorem short_phaseLines (r : BootDiagResult) : ∀ l ∈ r.phaseLines, l.length ≤ 77 := by
  have next := r.length_next_le
  unfold phaseLines
  simp only [List.forall_mem_append, List.forall_mem_map, List.forall_mem_cons,
    List.not_mem_nil, false_imp_iff, implies_true, and_true]
  refine ⟨⟨Nat.zero_le _, ?_, (length_ascii rfl).trans_le (by decide)⟩, fun p _ => ?_⟩
  · rw [List.length_append, length_ascii (n := 20) rfl]
    omega
  · have name := length_shortName_le p
    have status := length_st_le (p.statusOf r.phaseFlags r.firstMissing)
    rw [List.length_append, List.length_append, List.length_append, length_ascii (n := 2) rfl,
      length_ascii (n := 2) rfl]
    omega

theorem length_titleLine (r : BootDiagResult) :
    (ascii "Passive boot diagnostic (" ++ decimal r.passesRun.toNat ++ ascii " pass" ++
      (if r.passesRun = 1 then [] else ascii "es") ++ ascii ")").length =
      31 + (decimal r.passesRun.toNat).length + if r.passesRun = 1 then 0 else 2 := by
  have plural : (if r.passesRun = 1 then [] else ascii "es").length =
      if r.passesRun = 1 then 0 else 2 := by
    split
    · rfl
    · exact length_ascii rfl
  simp only [List.length_append, plural]
  rw [length_ascii (n := 25) rfl, length_ascii (n := 5) rfl, length_ascii (n := 1) rfl]
  omega

theorem length_busTitle (r : BootDiagResult) :
    (ascii "Bus integrity (" ++ decimal r.nReads.toNat ++ ascii " reads):").length =
      23 + (decimal r.nReads.toNat).length := by
  simp only [List.length_append]
  rw [length_ascii (n := 15) rfl, length_ascii (n := 8) rfl]
  omega

theorem length_lastLine (r : BootDiagResult) : r.lastLine.length =
    26 + (yesNo r.earlyPpiWrites).length + (yesNo r.basicWorkareaInit).length := by
  simp only [lastLine, List.length_append]
  rw [length_ascii (n := 14) rfl, length_ascii (n := 12) rfl]
  omega

/-- No line but the one for a clean boot is longer than 77 characters. -/
theorem short_reportLines (r : BootDiagResult)
    (few : (bits (r.stuckAddrMask.setWidth 32) 16).length ≤ 10)
    (unclean : ¬(r.hintLines = [] ∧ r.complete = true)) :
    ∀ l ∈ r.reportLines, l.length ≤ 77 := by
  have passes : (decimal r.passesRun.toNat).length ≤ 3 :=
    length_decimal_le (by decide) (Nat.lt_trans r.passesRun.isLt (by decide))
  have reads : (decimal r.nReads.toNat).length ≤ 10 :=
    length_decimal_le (by decide) (Nat.lt_trans r.nReads.isLt (by decide))
  have ppi := length_yesNo_le r.earlyPpiWrites
  have work := length_yesNo_le r.basicWorkareaInit
  unfold reportLines bodyLines titleLines
  simp only [List.forall_mem_append, List.forall_mem_map, List.forall_mem_cons,
    List.not_mem_nil, false_imp_iff, implies_true, and_true]
  refine ⟨⟨⟨⟨⟨⟨⟨?_, Nat.zero_le _, (length_ascii rfl).trans_le (by decide)⟩, fun l inside => ?_⟩,
    Nat.zero_le _, ?_⟩, r.short_busLines⟩, r.short_anomalyLines⟩, r.short_phaseLines⟩, ?_⟩
  · rw [length_titleLine]
    split <;> omega
  · have cause := r.short_causeLines few unclean l inside
    rw [List.length_append, length_ascii (n := 2) rfl]
    omega
  · rw [length_busTitle]
    omega
  · rw [length_lastLine]
    omega

theorem long_of_clean (r : BootDiagResult) (nothing : r.hintLines = [])
    (complete : r.complete = true) : ∃ l ∈ r.reportLines, 77 < l.length := by
  refine ⟨ascii "- " ++ r.fallbackLine, ?_, ?_⟩
  · have cause : r.fallbackLine ∈ r.causeLines := by
      rw [causeLines, if_pos nothing]
      exact List.mem_cons_self
    simp only [reportLines, bodyLines, List.mem_append]
    exact .inl (.inl (.inl (.inl (.inl (.inr (List.mem_map_of_mem cause))))))
  · rw [List.length_append, length_ascii (n := 2) rfl, length_fallbackLine, if_pos complete]
    decide

/-! ## How long the whole is -/

/-- What a mask with bits adds to the two sections that name them. -/
def maskSize (mask : U32) (nbits fixed : Nat) : Nat :=
  if mask = 0 then 0 else 2 * bitsSize mask nbits + fixed

/-- What an anomaly adds to its two sections. -/
def anomalySize : BootAnomaly → Nat
  | .clkAbsent => 55
  | .clkOutOfRange => 53
  | .resetStuck => 56
  | .noBusCycles => 63
  | .waitStuckLow => 50

/-- What the findings add, or their absence. -/
def findingsSize (r : BootDiagResult) : Nat :=
  (r.anomalies.map anomalySize).sum + (if r.anomalyFlags = 0 then 0 else 11) +
    maskSize (r.stuckDataHi.setWidth 32) 8 56 + maskSize (r.stuckDataLo.setWidth 32) 8 55 +
    maskSize (r.stuckAddrMask.setWidth 32) 16 45 + (if r.busUndriven then 82 else 0) +
    (if r.cpFailed = 0 then 0 else 78) + (if r.findings = 0 then 5 else 0) +
    if r.anomalies.length + r.findings = 0 then
      if r.complete then 84
      else 35 + (BootPhase.nameAt BootPhase.shortName r.firstMissing).length
    else 0

/-- The length of the report from the fields. -/
def reportSize (r : BootDiagResult) : Nat :=
  292 + (decimal r.passesRun.toNat).length + (if r.passesRun = 1 then 0 else 2) +
    (decimal r.nReads.toNat).length + r.next.length +
    (BootPhase.all.map fun p => (st (p.statusOf r.phaseFlags r.firstMissing)).length).sum +
    (yesNo r.earlyPpiWrites).length + (yesNo r.basicWorkareaInit).length + r.findingsSize

theorem length_unlines_dashes (ls : List (List U8)) :
    (unlines (ls.map (ascii "- " ++ ·))).length = (unlines ls).length + 2 * ls.length := by
  induction ls with
  | nil => rfl
  | cons l ls ih =>
    have dash : (ascii "- ").length = 2 := length_ascii rfl
    rw [List.map_cons, unlines_cons, unlines_cons, List.length_append, List.length_append,
      List.length_append, List.length_cons, List.length_cons, List.length_cons, ih, dash]
    omega

theorem size_ite {c : Prop} [Decidable c] (l : List U8) :
    (unlines (if c then [l] else [])).length = if c then l.length + 1 else 0 := by
  split
  · rw [unlines_singleton, List.length_append]
    rfl
  · rfl

theorem size_bitsHint {letter : List U8} (one : letter.length = 1) (mask : U32) {nbits : Nat}
    (inside : nbits ≤ 16) (hint : List U8) :
    (unlines (bitsHint letter mask nbits hint)).length =
      if mask = 0 then 0 else bitsSize mask nbits + hint.length + 1 := by
  unfold bitsHint
  split
  · rfl
  · rw [unlines_singleton, List.length_append, List.length_append, length_bitHint one inside]
    rfl

theorem size_bitsLine {letter : List U8} (one : letter.length = 1) (pfx : List U8) (mask : U32)
    {nbits : Nat} (inside : nbits ≤ 16) :
    (unlines (bitsLine pfx letter mask nbits)).length =
      if mask = 0 then 0 else bitsSize mask nbits + pfx.length + 1 := by
  unfold bitsLine
  split
  · rfl
  · rw [unlines_singleton, List.length_append, List.length_append, length_bitName one inside,
      Nat.add_comm pfx.length]
    rfl

theorem size_hintLines (r : BootDiagResult) : (unlines r.hintLines).length =
    (unlines (r.anomalies.map BootAnomaly.hint)).length +
      (if r.stuckDataHi.setWidth 32 = (0 : U32) then 0
        else bitsSize (r.stuckDataHi.setWidth 32) 8 + 37) +
      (if r.stuckDataLo.setWidth 32 = (0 : U32) then 0
        else bitsSize (r.stuckDataLo.setWidth 32) 8 + 37) +
      (if r.stuckAddrMask.setWidth 32 = (0 : U32) then 0
        else bitsSize (r.stuckAddrMask.setWidth 32) 16 + 31) +
      (if r.busUndriven then 54 else 0) + (if r.cpFailed = 0 then 0 else 40) := by
  have letter : (ascii "D").length = 1 := length_ascii rfl
  have opcode : (ascii "opcode mismatch 0x" ++ hex 2 r.cpFailed.toNat ++
      ascii " - ROM or data path").length = 39 := by
    rw [List.length_append, List.length_append, length_hex (by decide) r.cpFailed.isLt,
      length_ascii (n := 18) rfl, length_ascii (n := 19) rfl]
  unfold hintLines
  simp only [unlines_append, List.length_append, size_ite, opcode]
  rw [size_bitsHint letter _ (by decide), size_bitsHint letter _ (by decide),
    size_bitsHint (length_ascii rfl) _ (by decide), length_ascii (n := 36) rfl,
    length_ascii (n := 36) rfl, length_ascii (n := 30) rfl, length_ascii (n := 53) rfl, ite_not]

theorem size_busLines (r : BootDiagResult) : (unlines r.busLines).length =
    (if r.stuckDataHi.setWidth 32 = (0 : U32) then 0
        else bitsSize (r.stuckDataHi.setWidth 32) 8 + 17) +
      (if r.stuckDataLo.setWidth 32 = (0 : U32) then 0
        else bitsSize (r.stuckDataLo.setWidth 32) 8 + 16) +
      (if r.stuckAddrMask.setWidth 32 = (0 : U32) then 0
        else bitsSize (r.stuckAddrMask.setWidth 32) 16 + 12) +
      (if r.busUndriven then 26 else 0) + (if r.cpFailed = 0 then 0 else 36) +
      (if r.findings = 0 then 5 else 0) := by
  have letter : (ascii "D").length = 1 := length_ascii rfl
  have opcode : (ascii "- opcode checkpoint(s) failed: 0x" ++ hex 2 r.cpFailed.toNat).length =
      35 := by
    rw [List.length_append, length_hex (by decide) r.cpFailed.isLt, length_ascii (n := 33) rfl]
  unfold busLines
  by_cases nothing : r.findings = 0
  · have fields := r.findings_eq_zero_iff.mp nothing
    rw [if_pos fields, fields.1, fields.2.1, fields.2.2.1, fields.2.2.2.1, fields.2.2.2.2,
      if_pos nothing, unlines_singleton, List.length_append, length_ascii (n := 4) rfl]
    rfl
  · rw [if_neg fun fields => nothing (r.findings_eq_zero_iff.mpr fields), if_neg nothing]
    simp only [unlines_append, List.length_append, size_ite, opcode]
    rw [size_bitsLine letter _ _ (by decide), size_bitsLine letter _ _ (by decide),
      size_bitsLine (length_ascii rfl) _ _ (by decide), length_ascii (n := 16) rfl,
      length_ascii (n := 15) rfl, length_ascii (n := 11) rfl, length_ascii (n := 25) rfl, ite_not]
    rfl

theorem anomalies_eq_nil {r : BootDiagResult} (none : r.anomalyFlags = 0) : r.anomalies = [] := by
  refine List.filter_eq_nil_iff.mpr fun a _ => ?_
  rw [none, bitSet_eq_getLsbD]
  simp

/-- The hints and the names of the anomalies. -/
theorem size_anomalies (r : BootDiagResult) :
    (unlines (r.anomalies.map BootAnomaly.hint)).length + 2 * r.anomalies.length +
        (unlines r.anomalyLines).length =
      (r.anomalies.map anomalySize).sum + if r.anomalyFlags = 0 then 0 else 11 := by
  have one (a : BootAnomaly) : a.hint.length + a.name.length + 6 = anomalySize a := by
    cases a <;> exact congrArg (· + 6) (congrArg₂ (· + ·) (length_ascii rfl) (length_ascii rfl))
  have listed (flagged : List BootAnomaly) :
      (unlines (flagged.map BootAnomaly.hint)).length + 2 * flagged.length +
          (unlines (flagged.map fun a => ascii "- " ++ a.name)).length =
        (flagged.map anomalySize).sum := by
    induction flagged with
    | nil => rfl
    | cons a rest ih =>
      have here := one a
      simp only [List.map_cons, unlines_cons, List.sum_cons, List.length_append,
        List.length_cons]
      rw [length_ascii (n := 2) rfl]
      omega
  unfold anomalyLines
  by_cases none : r.anomalyFlags = 0
  · rw [if_neg (not_not.mpr none), if_pos none, anomalies_eq_nil none]
    rfl
  · have all := listed r.anomalies
    rw [if_pos none, if_neg none, unlines_cons, List.length_append, List.length_cons,
      length_ascii (n := 10) rfl]
    omega

theorem size_phaseLines (r : BootDiagResult) : (unlines r.phaseLines).length =
    190 + r.next.length +
      (BootPhase.all.map fun p => (st (p.statusOf r.phaseFlags r.firstMissing)).length).sum := by
  have listed (phases : List BootPhase) (status : BootPhase → List U8) :
      (unlines (phases.map fun p => ascii "- " ++ p.shortName ++ ascii ": " ++ status p)).length =
        (phases.map fun p => p.shortName.length + 5).sum +
          (phases.map fun p => (status p).length).sum := by
    induction phases with
    | nil => rfl
    | cons p rest ih =>
      simp only [List.map_cons, unlines_cons, List.sum_cons, List.length_append, List.length_cons]
      rw [length_ascii (n := 2) rfl, length_ascii (n := 2) rfl]
      omega
  have names : (BootPhase.all.map fun p => p.shortName.length + 5).sum = 160 := by
    decide +kernel
  unfold phaseLines
  rw [unlines_append, List.length_append, listed, names]
  simp only [unlines_cons, unlines_nil, List.length_append, List.length_cons, List.length_nil]
  rw [length_ascii (n := 20) rfl, length_ascii (n := 7) rfl]
  omega

theorem size_causeLines (r : BootDiagResult) :
    (unlines r.causeLines).length + 2 * r.causeLines.length =
      (unlines r.hintLines).length + 2 * (r.anomalies.length + r.findings) +
        if r.anomalies.length + r.findings = 0 then
          if r.complete then 84
          else 35 + (BootPhase.nameAt BootPhase.shortName r.firstMissing).length
        else 0 := by
  have count := r.length_hintLines
  unfold causeLines
  by_cases nothing : r.hintLines = []
  · rw [nothing] at count ⊢
    rw [List.length_nil] at count
    rw [if_pos rfl, ← count, if_pos rfl, unlines_singleton, List.length_append,
      length_fallbackLine]
    split
    · rfl
    · simp only [List.length_cons, List.length_nil, unlines_nil]
      omega
  · have some : ¬r.anomalies.length + r.findings = 0 := fun zero =>
      nothing (List.length_eq_zero_iff.mp (count.trans zero))
    rw [if_neg nothing, if_neg some, count]
    rfl

/-- A mask's two lines, with what stands before each. -/
theorem size_mask {w : Nat} (mask : BitVec w) (narrow : w ≤ 32) (nbits cause bus : Nat) :
    (if mask.setWidth 32 = (0 : U32) then 0 else bitsSize (mask.setWidth 32) nbits + cause) +
        (if mask.setWidth 32 = (0 : U32) then 0 else bitsSize (mask.setWidth 32) nbits + bus) +
        2 * (if mask = 0 then 0 else 1) =
      maskSize (mask.setWidth 32) nbits (cause + bus + 2) := by
  have zero := widen_eq_zero narrow mask
  unfold maskSize
  by_cases none : mask = 0
  · rw [if_pos none, if_pos (zero.mpr none), if_pos (zero.mpr none), if_pos (zero.mpr none)]
  · have some : ¬mask.setWidth 32 = 0 := fun wide => none (zero.mp wide)
    rw [if_neg none, if_neg some, if_neg some, if_neg some]
    omega

theorem size_titleLines (r : BootDiagResult) : (unlines r.titleLines).length =
    50 + (decimal r.passesRun.toNat).length + if r.passesRun = 1 then 0 else 2 := by
  rw [titleLines, unlines_cons, unlines_cons, unlines_singleton, List.length_append,
    length_titleLine, List.length_cons, List.nil_append, List.length_cons, List.length_append,
    length_ascii (n := 16) rfl, List.length_singleton]
  omega

theorem size_busTitle (r : BootDiagResult) :
    (unlines [[], ascii "Bus integrity (" ++ decimal r.nReads.toNat ++ ascii " reads):"]).length =
      25 + (decimal r.nReads.toNat).length := by
  rw [unlines_cons, unlines_singleton, List.nil_append, List.length_cons, List.length_append,
    length_busTitle, List.length_singleton]
  omega

/-- The report's parts. -/
theorem size_reportLines (r : BootDiagResult) : (unlines r.reportLines).length =
    (unlines r.titleLines).length + ((unlines r.causeLines).length + 2 * r.causeLines.length) +
      (25 + (decimal r.nReads.toNat).length) + (unlines r.busLines).length +
      (unlines r.anomalyLines).length + (unlines r.phaseLines).length + r.lastLine.length + 1 := by
  unfold reportLines bodyLines
  rw [unlines_append, unlines_append, unlines_append, unlines_append, unlines_append,
    unlines_append, unlines_singleton, List.length_append, List.length_append, List.length_append,
    List.length_append, List.length_append, List.length_append, List.length_append,
    length_unlines_dashes, size_busTitle, List.length_singleton]
  omega

/-- The length of the report. -/
theorem length_reportLines_size (r : BootDiagResult) :
    (unlines r.reportLines).length = r.reportSize := by
  have hi : _ = maskSize _ 8 56 := size_mask r.stuckDataHi (by decide) 8 37 17
  have lo : _ = maskSize _ 8 55 := size_mask r.stuckDataLo (by decide) 8 37 16
  have addr : _ = maskSize _ 16 45 := size_mask r.stuckAddrMask (by decide) 16 31 12
  have undriven : (if r.busUndriven then 54 else 0) + (if r.busUndriven then 26 else 0) +
      2 * (if r.busUndriven then 1 else 0) = if r.busUndriven then 82 else 0 := by
    split <;> rfl
  have opcode : (if r.cpFailed = 0 then 0 else 40) + (if r.cpFailed = 0 then 0 else 36) +
      2 * (if r.cpFailed = 0 then 0 else 1) = if r.cpFailed = 0 then 0 else 78 := by
    split <;> rfl
  have findings : r.findings =
      (if r.stuckDataHi = 0 then 0 else 1) + (if r.stuckDataLo = 0 then 0 else 1) +
        (if r.stuckAddrMask = 0 then 0 else 1) + (if r.busUndriven then 1 else 0) +
        (if r.cpFailed = 0 then 0 else 1) := rfl
  have title := r.size_titleLines
  have causes := r.size_causeLines
  have hints := r.size_hintLines
  have bus := r.size_busLines
  have anomalies := r.size_anomalies
  have phases := r.size_phaseLines
  have last := r.length_lastLine
  rw [size_reportLines]
  unfold reportSize findingsSize
  omega

/-! ## In arrays -/

theorem nonzero_of_flatten {pieces : List (List U8)} {ls : List (List U8)}
    (text : pieces.flatten = unlines ls) (nonzero : ∀ l ∈ ls, ∀ b ∈ l, b ≠ 0) :
    ∀ piece ∈ pieces, ∀ b ∈ piece, b ≠ 0 := fun piece member b inside =>
  nonzero_of_mem_unlines nonzero b (text ▸ List.mem_flatten.mpr ⟨piece, member, inside⟩)

theorem fullCauses_nonzero (r : BootDiagResult) : ∀ b ∈ r.fullCauses, b ≠ 0 := by
  rw [fullCauses_eq]
  exact nonzero_of_mem_unlines fun l inside => (r.printable_causeLines l inside).nonzero

/-- What the prints of the causes leave in the array. -/
theorem possibleCauses_wrote (r : BootDiagResult) {mem : List U8} (some : 0 < mem.length) :
    (r.possibleCauses mem).Wrote mem r.fullCauses := by
  have hinted := (PrintBuf.wrote_nil some).foldl some r.hints
  rw [List.nil_append] at hinted
  unfold possibleCauses
  rw [if_neg some.ne']
  simp only []
  by_cases none : r.hints = []
  · rw [none, List.flatten_nil] at hinted
    rw [none, fullCauses, if_pos none]
    exact hinted.appendf some r.fallback
  · rw [fullCauses, if_neg none]
    split
    · -- Nothing fits: the array has one byte, and the fallback does not fit either.
      rename_i stuck
      have written : 0 < r.hints.flatten.length := by
        have lines : r.hintLines ≠ [] := fun empty => none (r.hints_eq_nil_iff.mpr empty)
        rw [hints_flatten, length_unlines]
        obtain ⟨l, rest, cons⟩ := List.exists_cons_of_ne_nil lines
        rw [cons, List.map_cons, List.sum_cons]
        omega
      have off := hinted.off
      rw [hinted.cut (hinted.appendf some r.fallback) (by omega)]
      exact hinted
    · exact hinted

/-- What is printed behind a finding's piece that is cut has no effect. -/
theorem possibleCauses_cut (r : BootDiagResult) {mem : List U8} (some : 0 < mem.length)
    {first rest : List (List U8)} (split : r.hints = first ++ rest)
    (cut : mem.length ≤ first.flatten.length) :
    r.possibleCauses mem = first.foldl PrintBuf.appendf ⟨mem.set 0 0, 0⟩ := by
  have whole := r.possibleCauses_wrote some
  have part := (PrintBuf.wrote_nil some).foldl some first
  have findings : r.hints ≠ [] := by
    rintro none
    rw [none] at split
    rw [(List.append_eq_nil_iff.mp split.symm).1] at cut
    exact absurd (some.trans_le cut) (Nat.lt_irrefl 0)
  rw [fullCauses, if_neg findings, split, List.flatten_append] at whole
  exact part.cut whole (Nat.le_trans (Nat.sub_le _ 1) cut)

/-- The array of the causes holds what fits of them. -/
theorem possibleCauses_printed (r : BootDiagResult) {mem : List U8} (some : 0 < mem.length) :
    (r.possibleCauses mem).Printed mem.length r.fullCauses :=
  ((r.possibleCauses_wrote some).holdsPrefix some r.fullCauses_nonzero).printed some

/-- The array of the report holds what fits of it, around what fits of the causes. -/
theorem formatReport_printed (r : BootDiagResult) (causes : CharArray 400) (mem : List U8)
    (some : 0 < mem.length) :
    (r.formatReport causes mem).Printed mem.length
      (unlines (r.bodyLines (lines (r.fullCauses.take 399)) ++ [r.lastLine])) := by
  have room : 0 < causes.mem.length := by
    rw [causes.length_mem]
    decide
  have held : text (r.possibleCauses causes.mem).mem = r.fullCauses.take 399 := by
    have holds := (r.possibleCauses_printed room).holds
    rw [causes.length_mem] at holds
    exact holds.text
  have nonzero : ∀ piece ∈ r.reportPieces (r.fullCauses.take 399), ∀ b ∈ piece, b ≠ 0 := by
    have causeLines := printable_lines_take r.printable_causeLines 399
    rw [← fullCauses_eq] at causeLines
    refine nonzero_of_flatten (r.reportPieces_flatten _) fun l inside => ?_
    rcases List.mem_append.mp inside with body | last
    · exact (r.printable_bodyLines causeLines l body).nonzero
    · rw [List.mem_singleton.mp last]
      exact r.printable_lastLine.nonzero
  unfold formatReport
  rw [if_neg some.ne', held, ← reportPieces_flatten]
  obtain ⟨first, rest, pieces⟩ : ∃ first rest,
      r.reportPieces (r.fullCauses.take 399) = first :: rest := ⟨_, _, rfl⟩
  have wrote := (PrintBuf.wrote_first some first).foldl some rest
  rw [← List.flatten_cons, ← pieces] at wrote
  rw [pieces, List.foldl_cons, ← pieces]
  refine (wrote.holdsPrefix some fun b inside => ?_).printed some
  obtain ⟨piece, member, here⟩ := List.mem_flatten.mp inside
  exact nonzero piece member b here

end MsxPulse.Firmware.BootDiagResult
