import MsxPulse.Firmware.Captures.Frozen
import MsxPulse.Firmware.UsbSerial.OutRing

/-!
# The BOOT command (cmd_dispatch.c)

The report passes four arrays on its way to the host: the one of the causes, the one of
the report, the one of a line and the ring. The host gets the whole of it for the
results that `BootDiagResult.Fits` describes and for no other.
-/

namespace MsxPulse.Firmware

open Library CString
open UsbSerial (writeLine cut Output)

namespace CmdDispatch

/-- The line that BOOT writes first. -/
def bootBanner : List U8 :=
  ascii "Boot diagnostic started; watch OLED. Run BOOT again when DONE for the report.\r\n"

/-- The local arrays of `cmd_boot` and `boot_diag_format_report`, with what they hold
before anything is written. -/
structure BootStack where
  causes : CharArray 400
  buf : CharArray 800
  line : CharArray usbOutLineLen

/-- A line of the report put into the array `line`. -/
def bootLine (line : CharArray usbOutLineLen) (l : List U8) : CharArray usbOutLineLen :=
  let len := if l.length ≥ usbOutLineLen - 2 then usbOutLineLen - 3 else l.length
  let line := (line.overwrite 0 (l.take len)).set len 0
  let L := strlen line.mem
  ((line.set L cr).set (L + 1) lf).set (L + 2) 0

/-- What the loop carries: the array keeps what the turn before left in it. -/
structure BootLoop where
  line : CharArray usbOutLineLen
  ring : UsbOutRing

def BootLoop.turn (s : BootLoop) (l : List U8) : BootLoop :=
  let line := bootLine s.line l
  ⟨line, writeLine s.ring line.mem⟩

/-- `cmd_boot` -/
def cmdBoot (d : BootDiag) (stack : BootStack) (ring : UsbOutRing) : BootDiag × UsbOutRing :=
  let d := d.start
  let ring := writeLine ring bootBanner
  let r := d.result
  if r.passesRun = 0 then (d, ring)
  else
    let buf := (r.formatReport stack.causes stack.buf.mem).mem
    (d, ((lines (text buf)).foldl BootLoop.turn ⟨stack.line, ring⟩).ring)

/-! ## What arrives -/

/-- A line without its CRLF. -/
def chomp (l : List U8) : List U8 := if [cr, lf] <:+ l then l.take (l.length - 2) else l

/-- The lines in the ring behind the first one. -/
def reported (ring : UsbOutRing) : List (List U8) :=
  (((ring.queued usbOutRingLines).map CharArray.text).tail).map chomp

theorem chomp_crlf (l : List U8) : chomp (l ++ [cr, lf]) = l := by
  rw [chomp, if_pos (List.suffix_append _ _), List.length_append]
  exact List.take_left

/-- The three bytes written behind a string end it in CRLF. -/
theorem text_set_crlf {start : List U8} (nonzero : ∀ b ∈ start, b ≠ 0) (x y z : U8)
    (rest : List U8) :
    text ((((start ++ x :: y :: z :: rest).set start.length cr).set (start.length + 1) lf).set
      (start.length + 2) 0) = start ++ [cr, lf] := by
  have one : start.length + 1 = (start ++ [cr]).length := by
    rw [List.length_append, List.length_singleton]
  have two : start.length + 2 = (start ++ [cr] ++ [lf]).length := by
    rw [List.append_assoc, List.length_append]
    rfl
  have whole : start ++ [cr] ++ [lf] = start ++ [cr, lf] := List.append_assoc _ _ _
  have content : ∀ b ∈ start ++ [cr] ++ [lf], b ≠ 0 := by
    rw [whole]
    intro b inside
    rcases List.mem_append.mp inside with old | ending
    · exact nonzero b old
    · rcases List.mem_pair.mp ending with rfl | rfl <;> decide
  rw [set_append_cons, List.append_cons start cr, one, set_append_cons, List.append_cons _ lf, two,
    set_append_cons, text_append_nul content, whole]

/-- The array of a line holds what fits of it, with its CRLF. -/
theorem text_bootLine (line : CharArray usbOutLineLen) {l : List U8} (nonzero : ∀ b ∈ l, b ≠ 0) :
    (bootLine line l).text = l.take 77 ++ [cr, lf] := by
  have len : (if l.length ≥ usbOutLineLen - 2 then usbOutLineLen - 3 else l.length) =
      (l.take 77).length := by
    rw [List.length_take]
    show (if l.length ≥ 78 then 77 else l.length) = _
    split <;> omega
  have first : l.take (l.take 77).length = l.take 77 := by
    rw [List.length_take, ← List.take_take, List.take_length]
  have kept : ∀ b ∈ l.take 77, b ≠ 0 := fun b inside => nonzero b (List.mem_of_mem_take inside)
  have short : (l.take 77).length ≤ 77 := List.length_take_le _ _
  unfold bootLine
  simp only []
  rw [len, first]
  generalize l.take 77 = start at kept short ⊢
  obtain ⟨x, y, z, rest, room⟩ : ∃ x y z rest, line.mem.drop start.length = x :: y :: z :: rest := by
    have size : 3 ≤ (line.mem.drop start.length).length := by
      rw [List.length_drop, line.length_mem]
      show 3 ≤ 80 - start.length
      omega
    match line.mem.drop start.length, size with
    | x :: y :: z :: rest, _ => exact ⟨x, y, z, rest, rfl⟩
  have written : ((line.overwrite 0 start).set start.length 0).mem =
      start ++ 0 :: y :: z :: rest := by
    rw [CharArray.mem_set, CharArray.mem_overwrite line (show 0 + start.length ≤ 80 by omega),
      Nat.zero_add, room]
    exact set_append_cons start x 0 (y :: z :: rest)
  have found : strlen ((line.overwrite 0 start).set start.length 0).mem = start.length := by
    rw [written, strlen, text_append_nul kept]
  rw [found, CharArray.text, CharArray.mem_set, CharArray.mem_set, CharArray.mem_set, written]
  exact text_set_crlf kept 0 y z rest

theorem cut_bootLine (line : CharArray usbOutLineLen) {l : List U8} (nonzero : ∀ b ∈ l, b ≠ 0) :
    cut (bootLine line l).mem = l.take 77 ++ [cr, lf] := by
  have held := text_bootLine line nonzero
  rw [CharArray.text] at held
  rw [cut, held]
  refine List.take_of_length_le ?_
  have short := List.length_take_le 77 l
  rw [List.length_append]
  show (l.take 77).length + 2 ≤ 79
  omega

/-- The loop writes the lines one after the other. -/
theorem BootLoop.ring_foldl {ls : List (List U8)} (nonzero : ∀ l ∈ ls, ∀ b ∈ l, b ≠ 0)
    (s : BootLoop) : ∃ written : List (List U8),
      written.map cut = ls.map (fun l => l.take 77 ++ [cr, lf]) ∧
      (ls.foldl BootLoop.turn s).ring = written.foldl writeLine s.ring := by
  induction ls generalizing s with
  | nil => exact ⟨[], rfl, rfl⟩
  | cons l ls ih =>
    obtain ⟨written, content, ring⟩ :=
      ih (fun m inside => nonzero m (List.mem_cons_of_mem _ inside)) (s.turn l)
    refine ⟨(bootLine s.line l).mem :: written, ?_, ring⟩
    rw [List.map_cons, List.map_cons, content, cut_bootLine _ (nonzero l List.mem_cons_self)]

/-- Of the lines of the report's array, the host gets the first thirty, each up to its
77th character. -/
theorem reported_cmdBoot {d : BootDiag} (frozen : d.result.passesRun ≠ 0) (stack : BootStack)
    {ring : UsbOutRing} (empty : ring.writeIdx = ring.readIdx)
    (inside : ring.readIdx < usbOutRingLines) :
    reported (cmdBoot d stack ring).2 =
      ((lines (text (d.result.formatReport stack.causes stack.buf.mem).mem)).map
        (List.take 77)).take 30 := by
  have result : d.start.result = d.result := by rw [BootDiag.start_eq]
  have fresh : Output.Fresh ⟨ring, .testing⟩ := ⟨empty, inside, rfl⟩
  unfold cmdBoot
  simp only []
  rw [result, if_neg frozen]
  generalize printed : text (d.result.formatReport stack.causes stack.buf.mem).mem = report
  have nonzero : ∀ l ∈ lines report, ∀ b ∈ l, b ≠ 0 := fun l member b here =>
    ne_zero_of_mem_text (printed ▸ mem_of_mem_lines member here)
  obtain ⟨written, content, looped⟩ :=
    BootLoop.ring_foldl nonzero ⟨stack.line, writeLine ring bootBanner⟩
  have queue : (((lines report).foldl BootLoop.turn ⟨stack.line, writeLine ring bootBanner⟩).ring.queued
      usbOutRingLines).map CharArray.text =
        (cut bootBanner :: (lines report).map (fun l => l.take 77 ++ [cr, lf])).take 31 := by
    have all := fresh.ok.queued_foldl (bootBanner :: written)
    rw [fresh.queued, List.nil_append, List.map_cons, content] at all
    rw [looped]
    exact all
  rw [reported, queue, List.take_succ_cons, List.tail_cons, List.map_take, List.map_map]
  congr 2
  funext l
  exact chomp_crlf (l.take 77)

end CmdDispatch

namespace BootDiagResult

/-- A report that no limit on its way cuts: no line over 77 characters, no more than
thirty lines, and no more than 800 characters. -/
structure Fits (r : BootDiagResult) : Prop where
  width : ¬(r.anomalies.length + r.findings = 0 ∧ r.complete = true)
  count : r.anomalies.length = 0 ∨ r.findings = 0 ∨ r.anomalies.length + r.findings ≤ 5
  size : r.reportSize ≤ 800

variable {r : BootDiagResult}

theorem anomalies_eq_nil_iff (known : r.anomalyFlags.toNat < 2 ^ 5) :
    r.anomalies = [] ↔ r.anomalyFlags = 0 := by
  refine ⟨fun none => ?_, anomalies_eq_nil⟩
  have all : ∀ n < 2 ^ 5,
      (BootAnomaly.all.filter fun a => bitSet (BitVec.ofNat 16 n) a.index) = [] → n = 0 := by
    decide
  have value : BitVec.ofNat 16 r.anomalyFlags.toNat = r.anomalyFlags := by simp
  exact BitVec.eq_of_toNat_eq (all _ known (by rw [value]; exact none))

theorem length_anomalies_le (r : BootDiagResult) : r.anomalies.length ≤ 5 :=
  List.length_filter_le _ BootAnomaly.all

theorem findings_le (r : BootDiagResult) : r.findings ≤ 5 := by
  unfold findings
  split_ifs <;> decide

theorem length_reportLines_le_iff (known : r.anomalyFlags.toNat < 2 ^ 5) :
    r.reportLines.length ≤ 30 ↔
      r.anomalies.length = 0 ∨ r.findings = 0 ∨ r.anomalies.length + r.findings ≤ 5 := by
  have few := r.length_anomalies_le
  have kinds := r.findings_le
  have flags := anomalies_eq_nil_iff known
  rw [← List.length_eq_zero_iff] at flags
  rw [length_reportLines]
  split
  · next none =>
    rw [← flags] at none
    omega
  · next some =>
    rw [← flags] at some
    omega

/-- The text in the array of the report. -/
def heldReport (r : BootDiagResult) : List U8 :=
  (unlines (r.bodyLines (lines (r.fullCauses.take 399)) ++ [r.lastLine])).take 799

theorem text_formatReport (r : BootDiagResult) (causes : CharArray 400) {mem : List U8}
    (size : mem.length = 800) : text (r.formatReport causes mem).mem = r.heldReport := by
  have printed := r.formatReport_printed causes mem (by omega)
  rw [size] at printed
  exact printed.holds.text

theorem fullReport_eq (r : BootDiagResult) : r.fullReport = unlines r.reportLines := by
  rw [fullReport, reportPieces_flatten, fullCauses_eq,
    lines_unlines fun l inside => (r.printable_causeLines l inside).plain]
  rfl

/-- The lines that the host gets. -/
def arrivedLines (r : BootDiagResult) : List (List U8) :=
  ((lines r.heldReport).map (List.take 77)).take 30

theorem plain_arrivedLines (r : BootDiagResult) : ∀ l ∈ r.arrivedLines, Plain l := by
  intro l inside
  obtain ⟨line, member, rfl⟩ := List.mem_map.mp (List.mem_of_mem_take inside)
  exact fun b here => plain_of_mem_lines member b (List.mem_of_mem_take here)

/-- The limits on lines and on the ring are read off what arrives. The array of the
report holds 799 characters; only the last newline can be the 800th. -/
theorem fits_of_arrived (freezable : r.Freezable) (arrived : r.arrivedLines = r.reportLines) :
    r.Fits := by
  refine ⟨?_, ?_, ?_⟩
  · rintro ⟨nothing, complete⟩
    rw [← length_hintLines, List.length_eq_zero_iff] at nothing
    obtain ⟨l, inside, long⟩ := r.long_of_clean nothing complete
    rw [← arrived] at inside
    obtain ⟨line, -, rfl⟩ := List.mem_map.mp (List.mem_of_mem_take inside)
    have short := List.length_take_le 77 line
    omega
  · rw [← length_reportLines_le_iff freezable.known, ← arrived]
    exact List.length_take_le _ _
  · have ring := length_unlines_take_le ((lines r.heldReport).map (List.take 77)) 30
    have width := length_unlines_map_le (f := List.take 77) (fun l => List.length_take_le' 77 l)
      (lines r.heldReport)
    have held : r.heldReport.length ≤ 799 := List.length_take_le _ _
    have apart := length_unlines_lines_le r.heldReport
    rw [← arrivedLines, arrived, length_reportLines_size] at ring
    omega

theorem Fits.unclean (h : r.Fits) : ¬(r.hintLines = [] ∧ r.complete = true) := by
  rw [← List.length_eq_zero_iff, length_hintLines]
  exact h.width

/-- The array of the causes is large enough for every report that the ring can take. -/
theorem Fits.lines_causes (h : r.Fits) (freezable : r.Freezable) :
    lines (r.fullCauses.take 399) = r.causeLines := by
  have size := length_unlines_le (r.short_causeLines freezable.few h.unclean)
  have number := r.length_causeLines
  have count := h.count
  have few := r.length_anomalies_le
  have kinds := r.findings_le
  rw [fullCauses_eq, List.take_of_length_le (by omega),
    lines_unlines fun l inside => (r.printable_causeLines l inside).plain]

theorem Fits.lines_heldReport (h : r.Fits) (freezable : r.Freezable) :
    lines r.heldReport = r.reportLines := by
  have size := h.size
  have nonempty : r.lastLine ≠ [] := by
    rw [← List.length_pos_iff, length_lastLine]
    omega
  rw [heldReport, h.lines_causes freezable]
  refine lines_take_unlines (fun l inside => (r.printable_reportLines l inside).plain) nonempty ?_
  rw [← reportLines, length_reportLines_size]
  omega

theorem Fits.arrived (h : r.Fits) (freezable : r.Freezable) : r.arrivedLines = r.reportLines := by
  have short := r.short_reportLines freezable.few h.unclean
  have whole : r.reportLines.map (List.take 77) = r.reportLines :=
    (List.map_congr_left fun l inside => List.take_of_length_le (short l inside)).trans
      (List.map_id _)
  rw [arrivedLines, h.lines_heldReport freezable, whole]
  exact List.take_of_length_le ((length_reportLines_le_iff freezable.known).mpr h.count)

end BootDiagResult

namespace CmdDispatch

/-- For a result that a round can freeze. -/
theorem delivered_iff {d : BootDiag} (freezable : d.result.Freezable)
    (frozen : d.result.passesRun ≠ 0) (stack : BootStack) {ring : UsbOutRing}
    (empty : ring.writeIdx = ring.readIdx) (inside : ring.readIdx < usbOutRingLines) :
    unlines (reported (cmdBoot d stack ring).2) = d.result.fullReport ↔ d.result.Fits := by
  have arrived : reported (cmdBoot d stack ring).2 = d.result.arrivedLines := by
    rw [reported_cmdBoot frozen stack empty inside,
      d.result.text_formatReport stack.causes stack.buf.length_mem]
    rfl
  rw [arrived, d.result.fullReport_eq]
  constructor
  · intro same
    exact BootDiagResult.fits_of_arrived freezable (unlines_injective d.result.plain_arrivedLines
      (fun l member => (d.result.printable_reportLines l member).plain) same)
  · intro fits
    rw [fits.arrived freezable]

/-- The host gets the whole report exactly if none of the limits on its way cuts it. -/
theorem boot_delivers_iff {s : Captures} (reached : s.Reached)
    (frozen : s.diag.result.passesRun ≠ 0) (stack : BootStack) {ring : UsbOutRing}
    (empty : ring.writeIdx = ring.readIdx) (inside : ring.readIdx < usbOutRingLines) :
    unlines (reported (cmdBoot s.diag stack ring).2) = s.diag.result.fullReport ↔
      s.diag.result.Fits :=
  delivered_iff reached.freezable frozen stack empty inside

/-- Local arrays without a NUL in them. -/
def usedStack : BootStack where
  causes := ⟨List.replicate 400 0xA5, List.length_replicate⟩
  buf := ⟨List.replicate 800 0xA5, List.length_replicate⟩
  line := ⟨List.replicate usbOutLineLen 0xA5, List.length_replicate⟩

/-- A probe sample of a machine at 3.58 MHz. -/
def healthySample : BusProbeSnapshot := { BusProbe.unpublished with clkHz := 3579545#32 }

/-- A round on a machine with a clock and no bus cycles. -/
def deadBus : List CaptureEvent := Captures.firstRound ++ Captures.silentRound healthySample

theorem boot_delivers_deadBus :
    unlines (reported (cmdBoot (Captures.machine.final (Captures.initial Captures.sampleMemory)
        deadBus).diag usedStack Output.initial.ring).2) =
      (Captures.machine.final (Captures.initial Captures.sampleMemory)
        deadBus).diag.result.fullReport :=
  (boot_delivers_iff ⟨Captures.sampleMemory, deadBus, by decide +kernel, rfl⟩
    (by decide +kernel) usedStack rfl (by decide)).mpr
      ⟨by decide +kernel, by decide +kernel, by decide +kernel⟩

/-- What is captured of a boot up to the cartridge scan: seven fetches, a write to RAM,
one to the VDP, and a read for the bus analysis. -/
def wholeBoot : List CaptureEvent :=
  [0x0000#32, 0x02D7#32, 0x03F8#32, 0x2680#32, 0x7C76#32, 0x003E#32, 0x7D75#32].map
      (fun addr => .memWord (0x0A000000#32 ||| addr)) ++
    [.memWord 0x19FFC000#32, .ioWord 0x15000099#32, .txnWord 0x00128123#32]

/-- A round on a machine without a fault. -/
def cleanRound : List CaptureEvent :=
  Captures.firstRound ++ .tick 0#32 healthySample :: wholeBoot ++
    List.replicate 15 (.core1 0#64) ++
    [.tick BootDiag.windowMs healthySample, .tick (BootDiag.windowMs + 60#32) healthySample]

/-- The only line of its causes is too long. -/
theorem clean_boot_cut :
    ¬ ∀ s : Captures, s.Reached → s.diag.result.passesRun ≠ 0 →
      ∀ (stack : BootStack) (ring : UsbOutRing), ring.writeIdx = ring.readIdx →
        ring.readIdx < usbOutRingLines →
        unlines (reported (cmdBoot s.diag stack ring).2) = s.diag.result.fullReport := by
  intro claim
  have reached : (Captures.machine.final (Captures.initial Captures.sampleMemory)
      cleanRound).Reached := ⟨Captures.sampleMemory, cleanRound, by decide +kernel, rfl⟩
  have frozen : (Captures.machine.final (Captures.initial Captures.sampleMemory)
      cleanRound).diag.result.passesRun ≠ 0 := by decide +kernel
  have whole := claim _ reached frozen usedStack Output.initial.ring rfl (by decide)
  rw [delivered_iff reached.freezable frozen usedStack rfl (by decide)] at whole
  have long : (Captures.machine.final (Captures.initial Captures.sampleMemory)
        cleanRound).diag.result.anomalies.length +
      (Captures.machine.final (Captures.initial Captures.sampleMemory)
        cleanRound).diag.result.findings = 0 ∧
      (Captures.machine.final (Captures.initial Captures.sampleMemory)
        cleanRound).diag.result.complete = true := by
    decide +kernel
  exact whole.width long

end CmdDispatch

end MsxPulse.Firmware
