import MsxPulse.Library.Format
import MsxPulse.Library.Lines
import MsxPulse.Firmware.BootDiag

/-!
# The report of a round (boot_diag.c)

The report and its possible causes are printed piece by piece into arrays that may be
too small. What the pieces would give without the arrays is a text of lines, here
`reportLines`; its size is a sum over the result's fields.
-/

namespace MsxPulse.Firmware

open Library CString

namespace BootAnomaly

/-- The order of the enumerators. -/
def all : List BootAnomaly := [clkAbsent, clkOutOfRange, resetStuck, noBusCycles, waitStuckLow]

/-- `boot_diag_anomaly_name` -/
def name : BootAnomaly → List U8
  | clkAbsent => ascii "no clock"
  | clkOutOfRange => ascii "clock off-freq"
  | resetStuck => ascii "reset held"
  | noBusCycles => ascii "no bus cycles"
  | waitStuckLow => ascii "/WAIT stuck low"

/-- Its line in `boot_diag_possible_causes`, less the newline. -/
def hint : BootAnomaly → List U8
  | clkAbsent => ascii "no clock - xtal / clock gen / CPU clk pin"
  | clkOutOfRange => ascii "clock off-freq - xtal / clock gen"
  | resetStuck => ascii "reset held - RC / Schmitt / short to GND"
  | noBusCycles => ascii "no bus cycles - Z80 or addr-decode / ROM /CS"
  | waitStuckLow => ascii "/WAIT low - wait-state source"

end BootAnomaly

namespace BootDiagResult

/-- The bits that a loop over the bits of a mask names. -/
def bits (mask : U32) (nbits : Nat) : List Nat := (List.range nbits).filter fun i => bitSet mask i

/-- What `append_bits` prints. -/
def appendBits (pfx : List U8) (mask : U32) (nbits : Nat) : List (List U8) :=
  if mask = 0 then []
  else
    [pfx] ++
      (bits mask nbits).map (fun i =>
        ascii " " ++ (if pfx.head? = (ascii "D").head? then ascii "D" else ascii "A") ++ decimal i) ++
      [ascii "\n"]

/-- What `append_cause_bits` prints. -/
def appendCauseBits (letter : List U8) (mask : U32) (nbits : Nat) (hint : List U8) :
    List (List U8) :=
  if mask = 0 then []
  else (bits mask nbits).map (fun i => letter ++ decimal i ++ ascii " ") ++ [hint ++ ascii "\n"]

/-- The anomalies flagged. -/
def anomalies (r : BootDiagResult) : List BootAnomaly :=
  BootAnomaly.all.filter fun a => bitSet r.anomalyFlags a.index

/-- What `boot_diag_possible_causes` prints for the findings. -/
def hints (r : BootDiagResult) : List (List U8) :=
  r.anomalies.map (fun a => a.hint ++ ascii "\n") ++
    appendCauseBits (ascii "D") (r.stuckDataHi.setWidth 32) 8
      (ascii "stuck hi - buffer (LVC245) or driver") ++
    appendCauseBits (ascii "D") (r.stuckDataLo.setWidth 32) 8
      (ascii "stuck lo - buffer (LVC245) or driver") ++
    appendCauseBits (ascii "A") (r.stuckAddrMask.setWidth 32) 16
      (ascii "stuck - line or address decode") ++
    (if r.busUndriven then [ascii "bus not driven - BIOS ROM / /CS / decode / cold joint\n"]
      else []) ++
    (if r.cpFailed ≠ 0 then
      [ascii "opcode mismatch 0x" ++ hex 2 r.cpFailed.toNat ++ ascii " - ROM or data path\n"]
      else [])

/-- All nine phases are flagged. -/
def complete (r : BootDiagResult) : Bool := r.phaseFlags &&& 0x1FF#16 == 0x1FF#16

/-- What it prints if it has printed nothing. -/
def fallback (r : BootDiagResult) : List U8 :=
  if r.complete then
    ascii "boot reached cart-scan; CPU/RAM/ROM/BASIC path exercised (VDP/PSG/kbd not proven)\n"
  else
    ascii "boot stalled before " ++ BootPhase.nameAt BootPhase.shortName r.firstMissing ++
      ascii "; see Phases\n"

/-- `boot_diag_possible_causes` -/
def possibleCauses (r : BootDiagResult) (mem : List U8) : PrintBuf :=
  if mem.length = 0 then ⟨mem, 0⟩
  else
    let b := r.hints.foldl PrintBuf.appendf ⟨mem.set 0 0, 0⟩
    if b.off = 0 then b.appendf r.fallback else b

/-- What `boot_diag_format_report` prints on bus integrity. -/
def busPieces (r : BootDiagResult) : List (List U8) :=
  if r.stuckDataHi = 0 ∧ r.stuckDataLo = 0 ∧ r.stuckAddrMask = 0 ∧ r.busUndriven = false ∧
      r.cpFailed = 0 then [ascii "- OK\n"]
  else
    appendBits (ascii "Data stuck HIGH:") (r.stuckDataHi.setWidth 32) 8 ++
      appendBits (ascii "Data stuck LOW:") (r.stuckDataLo.setWidth 32) 8 ++
      appendBits (ascii "Addr stuck:") (r.stuckAddrMask.setWidth 32) 16 ++
      (if r.busUndriven then [ascii "- bus not driven on reads\n"] else []) ++
      (if r.cpFailed ≠ 0 then
        [ascii "- opcode checkpoint(s) failed: 0x" ++ hex 2 r.cpFailed.toNat ++ ascii "\n"]
        else [])

/-- On the anomalies. -/
def anomalyPieces (r : BootDiagResult) : List (List U8) :=
  if r.anomalyFlags ≠ 0 then
    ascii "Anomalies:\n" :: r.anomalies.map fun a => ascii "- " ++ a.name ++ ascii "\n"
  else []

/-- The name of the next missing phase. -/
def next (r : BootDiagResult) : List U8 :=
  if r.firstMissing ≥ BootPhase.count then ascii "complete"
  else BootPhase.nameAt BootPhase.name r.firstMissing

/-- The table `st`. -/
def st : BootPhaseStatus → List U8
  | .ok => ascii "OK"
  | .stalled => ascii "STALLED"
  | .notReached => ascii "--"

def yesNo (b : Bool) : List U8 := if b then ascii "yes" else ascii "no"

/-- On the phases. -/
def phasePieces (r : BootDiagResult) : List (List U8) :=
  [ascii "\nNext missing phase: " ++ r.next ++ ascii "\nPhases:\n"] ++
    BootPhase.all.map (fun p => ascii "- " ++ p.shortName ++ ascii ": " ++
      st (p.statusOf r.phaseFlags r.firstMissing) ++ ascii "\n") ++
    [ascii "- PPI writes: " ++ yesNo r.earlyPpiWrites ++ ascii "  work-RAM: " ++
      yesNo r.basicWorkareaInit ++ ascii "\n"]

/-- What `boot_diag_format_report` prints, given the text of its array `causes`. -/
def reportPieces (r : BootDiagResult) (causes : List U8) : List (List U8) :=
  [ascii "Passive boot diagnostic (" ++ decimal r.passesRun.toNat ++ ascii " pass" ++
      (if r.passesRun = 1 then [] else ascii "es") ++ ascii ")\n\n",
    ascii "Possible causes:\n"] ++
    (lines causes).map (fun p => ascii "- " ++ p ++ ascii "\n") ++
    [ascii "\n", ascii "Bus integrity (" ++ decimal r.nReads.toNat ++ ascii " reads):\n"] ++
    r.busPieces ++ r.anomalyPieces ++ r.phasePieces

/-- `boot_diag_format_report`; `causes` is the local array before anything is written. -/
def formatReport (r : BootDiagResult) (causes : CharArray 400) (mem : List U8) : PrintBuf :=
  if mem.length = 0 then ⟨mem, 0⟩
  else (r.reportPieces (text (r.possibleCauses causes.mem).mem)).foldl PrintBuf.appendf ⟨mem, 0⟩

/-- The possible causes without an array's limit. -/
def fullCauses (r : BootDiagResult) : List U8 :=
  if r.hints = [] then r.fallback else r.hints.flatten

/-- The report without the limits of its two arrays. -/
def fullReport (r : BootDiagResult) : List U8 := (r.reportPieces r.fullCauses).flatten

/-! ## The lines of the full report -/

/-- The one line of `append_cause_bits`. -/
def bitsHint (letter : List U8) (mask : U32) (nbits : Nat) (hint : List U8) : List (List U8) :=
  if mask = 0 then []
  else [((bits mask nbits).map fun i => letter ++ decimal i ++ ascii " ").flatten ++ hint]

/-- The one line of `append_bits`. -/
def bitsLine (pfx : List U8) (letter : List U8) (mask : U32) (nbits : Nat) : List (List U8) :=
  if mask = 0 then []
  else [pfx ++ ((bits mask nbits).map fun i => ascii " " ++ letter ++ decimal i).flatten]

theorem appendCauseBits_flatten (letter : List U8) (mask : U32) (nbits : Nat) (hint : List U8) :
    (appendCauseBits letter mask nbits hint).flatten =
      unlines (bitsHint letter mask nbits hint) := by
  unfold appendCauseBits bitsHint
  split
  · rfl
  · rw [unlines_singleton, List.flatten_append, List.append_assoc]
    simp [ascii, lf]

theorem appendBits_flatten (pfx : List U8) (mask : U32) (nbits : Nat) :
    (appendBits pfx mask nbits).flatten = unlines (bitsLine pfx
      (if pfx.head? = (ascii "D").head? then ascii "D" else ascii "A") mask nbits) := by
  unfold appendBits bitsLine
  split
  · rfl
  · rw [unlines_singleton]
    simp [ascii, lf]

/-- One line for each finding. -/
def hintLines (r : BootDiagResult) : List (List U8) :=
  r.anomalies.map BootAnomaly.hint ++
    bitsHint (ascii "D") (r.stuckDataHi.setWidth 32) 8
      (ascii "stuck hi - buffer (LVC245) or driver") ++
    bitsHint (ascii "D") (r.stuckDataLo.setWidth 32) 8
      (ascii "stuck lo - buffer (LVC245) or driver") ++
    bitsHint (ascii "A") (r.stuckAddrMask.setWidth 32) 16
      (ascii "stuck - line or address decode") ++
    (if r.busUndriven then [ascii "bus not driven - BIOS ROM / /CS / decode / cold joint"]
      else []) ++
    (if r.cpFailed ≠ 0 then
      [ascii "opcode mismatch 0x" ++ hex 2 r.cpFailed.toNat ++ ascii " - ROM or data path"]
      else [])

def fallbackLine (r : BootDiagResult) : List U8 :=
  if r.complete then
    ascii "boot reached cart-scan; CPU/RAM/ROM/BASIC path exercised (VDP/PSG/kbd not proven)"
  else
    ascii "boot stalled before " ++ BootPhase.nameAt BootPhase.shortName r.firstMissing ++
      ascii "; see Phases"

def causeLines (r : BootDiagResult) : List (List U8) :=
  if r.hintLines = [] then [r.fallbackLine] else r.hintLines

def busLines (r : BootDiagResult) : List (List U8) :=
  if r.stuckDataHi = 0 ∧ r.stuckDataLo = 0 ∧ r.stuckAddrMask = 0 ∧ r.busUndriven = false ∧
      r.cpFailed = 0 then [ascii "- OK"]
  else
    bitsLine (ascii "Data stuck HIGH:") (ascii "D") (r.stuckDataHi.setWidth 32) 8 ++
      bitsLine (ascii "Data stuck LOW:") (ascii "D") (r.stuckDataLo.setWidth 32) 8 ++
      bitsLine (ascii "Addr stuck:") (ascii "A") (r.stuckAddrMask.setWidth 32) 16 ++
      (if r.busUndriven then [ascii "- bus not driven on reads"] else []) ++
      (if r.cpFailed ≠ 0 then
        [ascii "- opcode checkpoint(s) failed: 0x" ++ hex 2 r.cpFailed.toNat] else [])

def anomalyLines (r : BootDiagResult) : List (List U8) :=
  if r.anomalyFlags ≠ 0 then
    ascii "Anomalies:" :: r.anomalies.map fun a => ascii "- " ++ a.name
  else []

def titleLines (r : BootDiagResult) : List (List U8) :=
  [ascii "Passive boot diagnostic (" ++ decimal r.passesRun.toNat ++ ascii " pass" ++
    (if r.passesRun = 1 then [] else ascii "es") ++ ascii ")", [], ascii "Possible causes:"]

def phaseLines (r : BootDiagResult) : List (List U8) :=
  [[], ascii "Next missing phase: " ++ r.next, ascii "Phases:"] ++
    BootPhase.all.map fun p => ascii "- " ++ p.shortName ++ ascii ": " ++
      st (p.statusOf r.phaseFlags r.firstMissing)

def lastLine (r : BootDiagResult) : List U8 :=
  ascii "- PPI writes: " ++ yesNo r.earlyPpiWrites ++ ascii "  work-RAM: " ++
    yesNo r.basicWorkareaInit

/-- All lines but the last, around those of the causes. -/
def bodyLines (r : BootDiagResult) (causes : List (List U8)) : List (List U8) :=
  r.titleLines ++ causes.map (ascii "- " ++ ·) ++
    [[], ascii "Bus integrity (" ++ decimal r.nReads.toNat ++ ascii " reads):"] ++
    r.busLines ++ r.anomalyLines ++ r.phaseLines

def reportLines (r : BootDiagResult) : List (List U8) := r.bodyLines r.causeLines ++ [r.lastLine]

theorem hints_flatten (r : BootDiagResult) : r.hints.flatten = unlines r.hintLines := by
  have undriven : (if r.busUndriven then
      [ascii "bus not driven - BIOS ROM / /CS / decode / cold joint\n"] else []).flatten =
        unlines (if r.busUndriven then
          [ascii "bus not driven - BIOS ROM / /CS / decode / cold joint"] else []) := by
    split
    · rw [unlines_singleton, List.flatten_singleton, ← ascii_newline]
      exact ascii_append rfl
    · rfl
  have opcode : (if r.cpFailed ≠ 0 then
      [ascii "opcode mismatch 0x" ++ hex 2 r.cpFailed.toNat ++ ascii " - ROM or data path\n"]
        else []).flatten =
      unlines (if r.cpFailed ≠ 0 then
        [ascii "opcode mismatch 0x" ++ hex 2 r.cpFailed.toNat ++ ascii " - ROM or data path"]
          else []) := by
    split
    · rw [unlines_singleton, List.flatten_singleton, List.append_assoc _ _ [lf], ← ascii_newline]
      exact congrArg _ (ascii_append rfl)
    · rfl
  unfold hints hintLines
  simp only [List.flatten_append, unlines_append, appendCauseBits_flatten, undriven, opcode,
    flatten_map_newline]

theorem hints_eq_nil_iff (r : BootDiagResult) : r.hints = [] ↔ r.hintLines = [] := by
  have bits (letter : List U8) (mask : U32) (nbits : Nat) (hint : List U8) :
      appendCauseBits letter mask nbits hint = [] ↔ bitsHint letter mask nbits hint = [] := by
    unfold appendCauseBits bitsHint
    split <;> simp
  unfold hints hintLines
  simp only [List.append_eq_nil_iff, List.map_eq_nil_iff, bits, ite_eq_right_iff,
    List.cons_ne_nil]

theorem fallback_eq (r : BootDiagResult) : r.fallback = unlines [r.fallbackLine] := by
  rw [unlines_singleton]
  unfold fallback fallbackLine
  rw [← ascii_newline]
  split
  · exact ascii_append rfl
  · rw [List.append_assoc _ _ (ascii "\n")]
    exact congrArg _ (ascii_append rfl)

theorem fullCauses_eq (r : BootDiagResult) : r.fullCauses = unlines r.causeLines := by
  unfold fullCauses causeLines
  by_cases none : r.hintLines = []
  · rw [if_pos (r.hints_eq_nil_iff.mpr none), if_pos none, r.fallback_eq]
  · rw [if_neg fun empty => none (r.hints_eq_nil_iff.mp empty), if_neg none, r.hints_flatten]

theorem busPieces_flatten (r : BootDiagResult) : r.busPieces.flatten = unlines r.busLines := by
  have undriven : (if r.busUndriven then [ascii "- bus not driven on reads\n"] else []).flatten =
      unlines (if r.busUndriven then [ascii "- bus not driven on reads"] else []) := by
    split <;> rfl
  have opcode : (if r.cpFailed ≠ 0 then
      [ascii "- opcode checkpoint(s) failed: 0x" ++ hex 2 r.cpFailed.toNat ++ ascii "\n"]
        else []).flatten =
      unlines (if r.cpFailed ≠ 0 then
        [ascii "- opcode checkpoint(s) failed: 0x" ++ hex 2 r.cpFailed.toNat] else []) := by
    split <;> rfl
  unfold busPieces busLines
  split
  · rfl
  · simp only [List.flatten_append, unlines_append, appendBits_flatten, undriven, opcode]
    rfl

theorem anomalyPieces_flatten (r : BootDiagResult) :
    r.anomalyPieces.flatten = unlines r.anomalyLines := by
  unfold anomalyPieces anomalyLines
  split
  · rw [List.flatten_cons, unlines_cons, flatten_map_newline fun a : BootAnomaly => ascii "- " ++ a.name]
    rfl
  · rfl

theorem phasePieces_flatten (r : BootDiagResult) :
    r.phasePieces.flatten = unlines (r.phaseLines ++ [r.lastLine]) := by
  have phases := flatten_map_newline (fun p : BootPhase => ascii "- " ++ p.shortName ++
    ascii ": " ++ st (p.statusOf r.phaseFlags r.firstMissing)) BootPhase.all
  have next : ascii "\nNext missing phase: " = ascii "\n" ++ ascii "Next missing phase: " :=
    ascii_append rfl
  have broken : ascii "\nPhases:\n" = ascii "\n" ++ ascii "Phases:\n" := ascii_append rfl
  have title : ascii "Phases:\n" = ascii "Phases:" ++ ascii "\n" := ascii_append rfl
  unfold phasePieces phaseLines lastLine
  rw [List.flatten_append, List.flatten_append, phases, unlines_append, unlines_append, next,
    broken, title, ascii_newline]
  generalize unlines (BootPhase.all.map _) = listed
  simp only [unlines_cons, unlines_nil, List.flatten_singleton, List.append_assoc,
    List.cons_append, List.nil_append]

/-- Whatever the text of the causes, the report is made of lines. -/
theorem reportPieces_flatten (r : BootDiagResult) (causes : List U8) :
    (r.reportPieces causes).flatten = unlines (r.bodyLines (lines causes) ++ [r.lastLine]) := by
  have list := flatten_map_newline (fun p : List U8 => ascii "- " ++ p) (lines causes)
  have passes : ascii ")\n\n" = ascii ")" ++ ascii "\n\n" := ascii_append rfl
  have twice : ascii "\n\n" = ascii "\n" ++ ascii "\n" := ascii_append rfl
  have title : ascii "Possible causes:\n" = ascii "Possible causes:" ++ ascii "\n" :=
    ascii_append rfl
  have reads : ascii " reads):\n" = ascii " reads):" ++ ascii "\n" := ascii_append rfl
  unfold reportPieces bodyLines titleLines
  simp only [List.flatten_append, unlines_append]
  rw [list, busPieces_flatten, anomalyPieces_flatten, phasePieces_flatten, unlines_append, passes,
    twice, title, reads, ascii_newline]
  generalize unlines ((lines causes).map _) = listed
  simp only [unlines_cons, unlines_nil, List.flatten_cons, List.flatten_nil, List.append_assoc,
    List.append_nil, List.cons_append, List.nil_append]

end BootDiagResult

end MsxPulse.Firmware
