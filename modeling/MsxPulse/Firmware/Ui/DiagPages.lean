import MsxPulse.Firmware.BootDiag.Report
import MsxPulse.Firmware.Ui
import MsxPulse.Firmware.Ui.WrapRows

/-!
# The results carousel (ui.c)

Each page of a round's result is a list of calls of `fb_puts`; `ui_render` puts a title
before them and a footer behind.
-/

namespace MsxPulse.Firmware.Ui

open Library Library.CString Oled

/-- The local arrays of the renderers before anything is written. -/
structure Locals where
  line : CharArray 22
  buf : CharArray 22
  causes : CharArray 400
  wrap : CharArray 22
  ind : CharArray 8

variable (l : Locals) (r : BootDiagResult)

/-- `snprintf(line, sizeof(line), ...)` -/
def Locals.row (s : List U8) : List U8 := (l.line.snprintf s).text

theorem Locals.row_eq {s : List U8} (nonzero : ∀ b ∈ s, b ≠ 0) : l.row s = s.take 21 :=
  l.line.text_snprintf (by decide) nonzero

def clkText : List U8 :=
  if bitSet r.anomalyFlags BootAnomaly.clkAbsent.index then ascii "ABSENT"
  else if bitSet r.anomalyFlags BootAnomaly.clkOutOfRange.index then ascii "off-freq"
  else ascii "present"

def rstText : List U8 :=
  if bitSet r.anomalyFlags BootAnomaly.resetStuck.index then ascii "HELD" else ascii "released"

def busIssue : Bool :=
  r.stuckDataHi != 0 || r.stuckDataLo != 0 || r.stuckAddrMask != 0 || r.busUndriven ||
    r.cpFailed != 0

def bootText : List U8 :=
  if r.complete then ascii "BOOT complete"
  else if r.lastConfirmed < 0 then ascii "BOOT no phases"
  else l.row (ascii "BOOT to " ++ BootPhase.nameAt BootPhase.shortName r.lastConfirmed)

def renderDiagSummary : List Puts :=
  place 1
    [l.row (decimal r.passesRun.toNat ++ ascii " pass  " ++ decimal r.nReads.toNat ++ ascii " reads"),
      l.row (ascii "CLK  " ++ clkText r),
      l.row (ascii "RST  " ++ rstText r),
      l.row (ascii "BUS  " ++ if busIssue r then ascii "issues (see 2/6)" else ascii "OK"),
      bootText l r]

/-- The body of the loop of `append_bit_names`. Once `o + 4 < cap` fails it goes on failing, so
the loop ends there. -/
def bitName (letter : U8) (mask : U32) (b : PrintBuf) (i : Nat) : PrintBuf :=
  if b.off + 4 < b.mem.length ∧ bitSet mask i = true then
    let piece := letter :: decimal i ++ ascii " "
    ⟨vsnprintf b.mem b.off (b.mem.length - b.off) piece, b.off + piece.length⟩
  else b

/-- `append_bit_names` -/
def appendBitNames (out : List U8) (letter : U8) (mask : U32) (nbits : Nat) : List U8 :=
  ((List.range nbits).foldl (bitName letter mask) ⟨out.set 0 0, 0⟩).mem

/-- `buf` behind its first use on the page on bus and data. -/
def bufHi : List U8 :=
  if r.stuckDataHi = 0 then l.buf.mem
  else appendBitNames l.buf.mem (byteOf 'D') (r.stuckDataHi.setWidth 32) 8

def bufLo : List U8 :=
  if r.stuckDataLo = 0 then bufHi l r
  else appendBitNames (bufHi l r) (byteOf 'D') (r.stuckDataLo.setWidth 32) 8

def bufAddr : List U8 :=
  if r.stuckAddrMask = 0 then bufLo l r
  else appendBitNames (bufLo l r) (byteOf 'A') (r.stuckAddrMask.setWidth 32) 16

/-- The rows of the page if there are findings. -/
def busRows : List (List U8) :=
  (if r.stuckDataHi = 0 then [] else [l.row (ascii "Dhi:" ++ text (bufHi l r))]) ++
    (if r.stuckDataLo = 0 then [] else [l.row (ascii "Dlo:" ++ text (bufLo l r))]) ++
    (if r.stuckAddrMask = 0 then [] else [l.row (ascii "Astk:" ++ text (bufAddr l r))]) ++
    (if r.busUndriven then [ascii "bus not driven"] else []) ++
    (if r.cpFailed = 0 then [] else [l.row (ascii "opcode fail 0x" ++ hex 2 r.cpFailed.toNat)])

def renderDiagBus : List Puts :=
  if busIssue r then place 1 (busRows l r)
  else
    ⟨2, 0, ascii "Bus + data: OK"⟩ ::
      if r.cpChecked = 0 then [] else [⟨4, 0, ascii "opcodes verified"⟩]

/-- The loop ends at row 7 too. -/
def renderDiagAnomalies : List Puts :=
  if r.anomalyFlags = 0 then [⟨3, 0, ascii "Anomalies: none"⟩]
  else place 1 ((r.anomalies.map BootAnomaly.name).take 7)

def phaseStatusGlyph : BootPhaseStatus → List U8
  | .ok => ascii "OK"
  | .stalled => ascii "<<"
  | .notReached => ascii "--"

/-- `%-15s` -/
def padded (s : List U8) : List U8 := s ++ List.replicate (15 - s.length) blank

def renderDiagPhasesRange (lo hi : Nat) : List Puts :=
  place 1 ((BootPhase.all.filter fun p => lo ≤ p.index ∧ p.index ≤ hi).map fun p =>
    l.row (padded p.shortName ++ ascii " " ++
      phaseStatusGlyph (p.statusOf r.phaseFlags r.firstMissing)))

def renderDiagPhasesLo : List Puts := renderDiagPhasesRange l r 0 4

def renderDiagPhasesHi : List Puts := renderDiagPhasesRange l r 5 8

def renderDiagCauses : List Puts := wrapRows l.wrap (r.possibleCauses l.causes.mem).mem 1

/-- The renderer that `ui_render` calls for a page of the results. -/
def renderDiagPage : Nat → List Puts
  | 0 => renderDiagSummary l r
  | 1 => renderDiagBus l r
  | 2 => renderDiagAnomalies r
  | 3 => renderDiagPhasesLo l r
  | 4 => renderDiagPhasesHi l r
  | _ => renderDiagCauses l r

def titles : List (List U8) :=
  [ascii "Summary", ascii "Bus+Data", ascii "Anomalies", ascii "Phases 1-5", ascii "Phases 6-9",
    ascii "Poss.cause"]

/-- The calls before the page's own: its title and which page it is. -/
def resultsTitle (page : Nat) : List Puts :=
  let ind := (l.ind.snprintf (decimal (page + 1) ++ ascii "/" ++ decimal nDiagPages)).text
  let x := width - ind.length * charW
  [⟨0, 2 * charW, titles.getD page []⟩, ⟨0, if x < 0 then 0 else x, ind⟩]

def resultsFooter : Puts := ⟨7, 0, ascii "up/dn  hold sel=exit"⟩

/-- `ui_render` in the view of the results. -/
def renderResults (fb : Framebuffer) (blink : Bool) (page : Nat) : Framebuffer :=
  draw (fbPutglyph fb 0 0 (if blink then hbFull else hbHollow))
    (resultsTitle l page ++ renderDiagPage l r page ++ [resultsFooter])

end MsxPulse.Firmware.Ui
