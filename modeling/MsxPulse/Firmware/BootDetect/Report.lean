import MsxPulse.Library.Format
import MsxPulse.Firmware.BootDetect

/-!
# The report of the boot detector (boot_detect.c)
-/

namespace MsxPulse.Firmware

open Library CString

/-- `boot_detect_failure_category` behind the last confirmed phase. -/
def BootPhase.failureArea (headerRead : Bool) : BootPhase → List U8
  | resetVector => ascii "BIOS ROM fetch, jump exec, addr decoding"
  | biosEntry => ascii "Early BIOS setup, PPI access, slot reg access"
  | slotRamProbe => ascii "Slot sel, expanded-slot, RAM visibility/integrity"
  | biosInitDone => ascii "BASIC ROM mapping, slot config, ROM bus visibility"
  | basicHandoff => ascii "BASIC ROM mapping/visibility at 7C76"
  | basicColdstart => ascii "BASIC work RAM, stack area, system variables"
  | basicBiosVecs => ascii "BIOS service routine, screen init, VDP path"
  | vdpInit => ascii "BASIC init after display, keyboard/input, work RAM"
  | cartScan =>
    if headerRead then ascii "Reached cartridge discovery - boot OK to header"
    else ascii "Cart slot sel, cart ROM mapping, cart bus response"

namespace BootDetect

/-- `boot_detect_failure_category` -/
def failureCategory (s : BootDetect) : List U8 :=
  if s.lastConfirmed = -1 then ascii "CPU/reset/clock/BIOS ROM sel/addr/data bus"
  else BootPhase.nameAt (BootPhase.failureArea s.headerRead) s.lastConfirmed

/-- The name of the last confirmed phase. -/
def last (s : BootDetect) : List U8 :=
  if s.lastConfirmed < 0 then ascii "none" else BootPhase.nameAt BootPhase.name s.lastConfirmed

/-- The name of the next missing phase. -/
def next (s : BootDetect) : List U8 :=
  if s.firstMissing ≥ BootPhase.count then ascii "complete"
  else BootPhase.nameAt BootPhase.name s.firstMissing

/-- The table `yn`. -/
def yn (b : Bool) : List U8 := if b then ascii "yes" else ascii "no"

/-- What `boot_detect_format_report` prints. -/
def reportPieces (s : BootDetect) : List (List U8) :=
  [ascii "Boot phase detector result\n\n",
    ascii "Last confirmed phase: " ++ s.last ++ ascii "\n",
    ascii "Next missing phase: " ++ s.next ++ ascii "\n\nObserved:\n"] ++
    BootPhase.all.map (fun p => ascii "- " ++ p.name ++ ascii ": " ++
      yn (bitSet s.phaseFlags p.index) ++ ascii "\n") ++
    [ascii "- Early PPI/slot writes: " ++ yn s.earlyPpiWrites ++ ascii "\n",
      ascii "- BASIC work-area init: " ++ yn s.basicWorkareaInit ++ ascii "\n",
      ascii "- Header read (AB): " ++ yn s.headerRead ++ ascii "\n",
      ascii "- Header bytes: " ++ hex 2 s.header4000.toNat ++ ascii " " ++
        hex 2 s.header4001.toNat ++ ascii "\n",
      ascii "\nLikely failure area:\n" ++ s.failureCategory ++ ascii "\n"]

/-- `boot_detect_format_report` -/
def formatReport (s : BootDetect) (mem : List U8) : PrintBuf :=
  if mem.length = 0 then ⟨mem, 0⟩ else s.reportPieces.foldl PrintBuf.appendf ⟨mem, 0⟩

/-- The report without an array's limit. -/
def fullReport (s : BootDetect) : List U8 := s.reportPieces.flatten

/-! ## No NUL inside -/

theorem nonzero_nameAt {names : BootPhase → List U8} (nonzero : ∀ p, ∀ b ∈ names p, b ≠ 0)
    (value : Int) : ∀ b ∈ BootPhase.nameAt names value, b ≠ 0 := by
  unfold BootPhase.nameAt
  cases BootPhase.all.find? fun p => (p.index : Int) = value with
  | none =>
    show ∀ b ∈ ascii "?", b ≠ 0
    exact nonzero_ascii rfl
  | some p => exact nonzero p

theorem nonzero_name (p : BootPhase) : ∀ b ∈ p.name, b ≠ 0 := by
  cases p <;> exact nonzero_ascii rfl

theorem nonzero_failureArea (headerRead : Bool) (p : BootPhase) :
    ∀ b ∈ p.failureArea headerRead, b ≠ 0 := by
  cases p with
  | cartScan => cases headerRead <;> exact nonzero_ascii rfl
  | _ => exact nonzero_ascii rfl

theorem nonzero_failureCategory (s : BootDetect) : ∀ b ∈ s.failureCategory, b ≠ 0 := by
  unfold failureCategory
  split
  · exact nonzero_ascii rfl
  · exact nonzero_nameAt (nonzero_failureArea s.headerRead) s.lastConfirmed

theorem nonzero_last (s : BootDetect) : ∀ b ∈ s.last, b ≠ 0 := by
  unfold last
  split
  · exact nonzero_ascii rfl
  · exact nonzero_nameAt nonzero_name s.lastConfirmed

theorem nonzero_next (s : BootDetect) : ∀ b ∈ s.next, b ≠ 0 := by
  unfold next
  split
  · exact nonzero_ascii rfl
  · exact nonzero_nameAt nonzero_name s.firstMissing

theorem nonzero_yn (b : Bool) : ∀ c ∈ yn b, c ≠ 0 := by
  cases b <;> exact nonzero_ascii rfl

theorem fullReport_nonzero (s : BootDetect) : ∀ b ∈ s.fullReport, b ≠ 0 := by
  have hexes (v : U8) : ∀ b ∈ hex 2 v.toNat, b ≠ 0 := (printable_hex 2 v.toNat).nonzero
  have pieces : ∀ piece ∈ s.reportPieces, ∀ b ∈ piece, b ≠ 0 := by
    unfold reportPieces
    simp only [List.forall_mem_append, List.forall_mem_map, List.forall_mem_cons,
      List.not_mem_nil, false_imp_iff, implies_true, and_true]
    have newline : ∀ b ∈ ascii "\n", b ≠ 0 := nonzero_ascii rfl
    refine ⟨⟨⟨nonzero_ascii rfl, ⟨⟨nonzero_ascii rfl, s.nonzero_last⟩, newline⟩,
      ⟨nonzero_ascii rfl, s.nonzero_next⟩, nonzero_ascii rfl⟩, fun p _ => ⟨⟨⟨⟨nonzero_ascii rfl,
        nonzero_name p⟩, nonzero_ascii rfl⟩, nonzero_yn _⟩, newline⟩⟩, ?_⟩
    exact ⟨⟨⟨nonzero_ascii rfl, nonzero_yn _⟩, newline⟩, ⟨⟨nonzero_ascii rfl, nonzero_yn _⟩, newline⟩,
      ⟨⟨nonzero_ascii rfl, nonzero_yn _⟩, newline⟩, ⟨⟨⟨⟨nonzero_ascii rfl, hexes _⟩,
        nonzero_ascii rfl⟩, hexes _⟩, newline⟩, ⟨nonzero_ascii rfl, s.nonzero_failureCategory⟩,
      newline⟩
  intro b inside
  obtain ⟨piece, member, here⟩ := List.mem_flatten.mp inside
  exact pieces piece member b here

/-! ## In an array -/

theorem reportPieces_cons (s : BootDetect) : ∃ first rest, s.reportPieces = first :: rest :=
  ⟨_, _, rfl⟩

theorem formatReport_wrote (s : BootDetect) {mem : List U8} (some : 0 < mem.length) :
    (s.formatReport mem).Wrote mem s.fullReport := by
  obtain ⟨first, rest, pieces⟩ := s.reportPieces_cons
  rw [formatReport, if_neg some.ne', fullReport, pieces, List.foldl_cons, List.flatten_cons]
  exact (PrintBuf.wrote_first some first).foldl some rest

/-- What is printed behind a piece that is cut has no effect. -/
theorem formatReport_cut (s : BootDetect) {mem : List U8} (some : 0 < mem.length)
    {first rest : List (List U8)} (split : s.reportPieces = first ++ rest)
    (cut : mem.length ≤ first.flatten.length) :
    s.formatReport mem = first.foldl PrintBuf.appendf ⟨mem, 0⟩ := by
  have whole := s.formatReport_wrote some
  cases first with
  | nil => exact absurd (some.trans_le cut) (Nat.lt_irrefl 0)
  | cons piece first =>
    have part := (PrintBuf.wrote_first some piece).foldl some first
    rw [fullReport, split, List.flatten_append] at whole
    exact part.cut whole (Nat.le_trans (Nat.sub_le _ 1) cut)

end BootDetect

end MsxPulse.Firmware
