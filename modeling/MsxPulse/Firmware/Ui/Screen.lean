import MsxPulse.Firmware.MainLoop
import MsxPulse.Firmware.Oled.Legible
import MsxPulse.Firmware.Ui.DiagPages

/-!
# The screens (ui.c, oled.c)

What `ui_render` draws in every view: the pages of the carousel, the settings, the progress
of a round and its results.
-/

namespace MsxPulse.Firmware

open Library Library.CString

namespace Oled

/-- `fb_hline` -/
def fbHline (fb : Framebuffer) (page : Fin 8) : Framebuffer :=
  fun p q => if p = page then 0x08#8 else fb p q

/-- `fb_puts_centered` -/
def centered (page : Nat) (s : List U8) : Puts :=
  let x := (width - s.length * charW).tdiv 2
  ⟨page, if x < 0 then 0 else x, s⟩

/-- `render_boot` -/
def renderBoot : List Puts :=
  [centered 2 (ascii "MSXDOC v0.1"), centered 4 (ascii "Initialising...")]

/-- `render_firmware_update` -/
def renderFirmwareUpdate (fb : Framebuffer) : Framebuffer :=
  let ruled := fbHline (draw fb [centered 2 (ascii "FIRMWARE UPDATE")]) ⟨3, by decide⟩
  draw ruled [centered 5 (ascii "USB BOOTLOADER")]

end Oled

open Oled

/-- `rail_snapshot_t` -/
structure RailSnapshot where
  status : RailStatus
  v5 : Volts
  v12 : Volts
  vm12 : Volts

/-- Voltages below a hundred million, with their sign and two decimals. -/
structure RailSnapshot.Short (r : RailSnapshot) : Prop where
  v5 : r.v5.Short 12
  v12 : r.v12.Short 12
  vm12 : r.vm12.Short 12

/-- What the pages read besides the statics of the menu. -/
structure UiView where
  nowMs : U32
  rails : RailSnapshot
  probe : BusProbeSnapshot
  diag : BootDiag
  locals : Ui.Locals
  stbuf : CharArray 16

namespace Ui

/-- What the line arrays make of a formatted string. -/
structure Lines where
  row : List U8 → List U8
  status : List U8 → List U8
  indicator : List U8 → List U8

def Lines.exact : Lines := ⟨id, id, id⟩

section Pages

variable (f : Lines) (u : Ui) (v : UiView)

/-- `status_text` -/
def statusText : List U8 :=
  if u.level = .settings then ascii "settings"
  else if u.powerFault then ascii "POWER FAULT"
  else if v.rails.status.status5v = 3#8 ∧ v.rails.status.status12v = 3#8 then ascii "no MSX"
  else ascii "watching"

def settingsLabels : List (List U8) := [ascii "Run boot diag", ascii "back"]

def renderSettings : List Puts :=
  place (8 - 1 - settingsLabels.length) (settingsLabels.mapIdx fun i label =>
    f.row ((if i = u.selectorIdx then byteOf '>' else blank) :: label))

/-- `render_top_right_indicator` -/
def topRightIndicator : List Puts :=
  match u.level with
  | .main => [⟨0, width - 4 * charW, ascii "MAIN"⟩]
  | .detail =>
    let line := f.indicator (decimal u.pageIdx ++ ascii "/" ++ decimal (nPages - 1))
    let x := width - line.length * charW
    [⟨0, if x < 0 then 0 else x, line⟩]
  | .settings => []

def settingsFooter : List Puts :=
  if u.level = .settings then [centered 7 (ascii "up/dn  hold sel=back")] else []

def lineGlyph : LineState → U8
  | .active => byteOf '~'
  | .stuckHi => byteOf 'H'
  | .stuckLo => byteOf 'L'

/-- The key of the glyphs. -/
def glyphKey : Puts := ⟨7, 0, ascii "~ act  H hi  L lo"⟩

def renderRails : List Puts :=
  place 2
    [ f.row (ascii "+5V :  " ++ v.rails.v5.fmt 6 2 ++ ascii " V")
    , f.row (ascii "+12V:  " ++ v.rails.v12.fmt 6 2 ++ ascii " V")
    , f.row (ascii "-12V:  " ++ v.rails.vm12.fmt 6 2 ++ ascii " V") ] ++
  [⟨7, 0, ascii "raw - you judge"⟩]

def resetWord : ResetStatus → List U8
  | .running => ascii "RUNNING"
  | .inReset => ascii "IN RESET"
  | .pulsing => ascii "PULSING"
  | .drivenCart => ascii "DRIVEN(cart)"

/-- `%02lu` -/
def twoDigits (n : Nat) : List U8 :=
  List.replicate (2 - (decimal n).length) (byteOf '0') ++ decimal n

def clkLine : List U8 :=
  let hz := v.probe.clkHz.toNat
  if hz = 0 then ascii "CLK : ABSENT"
  else f.row (ascii "CLK : " ++ decimal (hz / 1000000) ++ ascii "." ++
    twoDigits (hz / 10000 % 100) ++ ascii " MHz")

def renderClkrst : List Puts :=
  [⟨2, 0, clkLine f v⟩, ⟨4, 0, f.row (ascii "RST : " ++ resetWord v.probe.reset)⟩]

/-- `%-5s %c` -/
def ctrlField (name : List U8) (line : CtrlLine) : List U8 :=
  name ++ List.replicate (5 - name.length) blank ++ ascii " " ++ [lineGlyph (v.probe.ctrl line)]

def renderControl : List Puts :=
  place 1
    [ f.row (ctrlField v (ascii "/RD") .rd ++ ascii "   " ++ ctrlField v (ascii "/WR") .wr)
    , f.row (ctrlField v (ascii "/MREQ") .mreq ++ ascii "   " ++ ctrlField v (ascii "/IORQ") .iorq)
    , f.row (ctrlField v (ascii "/M1") .m1 ++ ascii "   " ++ ctrlField v (ascii "/SLT") .sltsl)
    , f.row (ctrlField v (ascii "/WAIT") .wait) ] ++
  [glyphKey]

/-- Eight glyphs from a line on. -/
def addrGlyphs (from_ : Fin 9) : List U8 :=
  List.ofFn fun i : Fin 8 => lineGlyph (v.probe.addr ⟨from_ + i, by omega⟩)

def renderAddress : List Puts :=
  [ ⟨2, 0, ascii "A0-7 :"⟩, ⟨2, 7 * charW, addrGlyphs v 0⟩
  , ⟨3, 0, ascii "A8-15:"⟩, ⟨3, 7 * charW, addrGlyphs v 8⟩, glyphKey ]

def renderData : List Puts :=
  [ ⟨2, 0, ascii "D0-7 :"⟩, ⟨2, 7 * charW, List.ofFn fun i => lineGlyph (v.probe.data i)⟩
  , ⟨6, 0, ascii "idles floating"⟩, glyphKey ]

/-- The texts of a carousel page. -/
def carouselTexts : Nat → List Puts
  | 0 => renderRails f v
  | 1 => renderClkrst f v
  | 2 => renderControl f v
  | 3 => renderAddress v
  | _ => renderData v

/-- `carousel_pages[page].render`: the first page has a rule above it. -/
def renderPage (fb : Framebuffer) (page : Nat) : Framebuffer :=
  draw (if page = 0 then fbHline fb ⟨1, by decide⟩ else fb) (carouselTexts f v page)

def phaseText : BootDiagPhase → List U8
  | .passBegin => ascii "resetting MSX"
  | .capturing => ascii "capturing boot"
  | .settle => ascii "analysing"
  | _ => ascii "..."

def renderDiagProgress : List Puts :=
  [ ⟨2, 0, ascii "Boot diagnostic"⟩
  , ⟨4, 0, f.row (ascii "Pass " ++ decimal v.diag.currentPass.toNat ++ ascii "/" ++
      decimal BootDiag.maxPasses.toNat)⟩
  , ⟨5, 0, phaseText v.diag.phase⟩
  , ⟨7, 0, ascii "watching native boot"⟩ ]

/-- Row 0 and whatever follows it in the dashboard and the settings. -/
def renderMenu (fb : Framebuffer) : Framebuffer :=
  let fb := draw fb (⟨0, 2 * charW, f.status (statusText u v)⟩ :: topRightIndicator f u)
  let fb := if u.level = .settings then draw fb (renderSettings f u) else renderPage f v fb u.pageIdx
  draw fb (settingsFooter u)

end Pages

end Ui

namespace UiView

variable (v : UiView)

/-- The local arrays, filled by `snprintf`. -/
def lines : Ui.Lines where
  row := v.locals.row
  status s := (v.stbuf.snprintf s).text
  indicator s := (v.locals.ind.snprintf s).text

def blink : Bool := v.nowMs.toNat / 500 % 2 = 1

end UiView

/-- `ui_render`, with the menu as it is after the hand-over to the results. -/
def Ui.draw (u : Ui) (v : UiView) (fb : Framebuffer) : Framebuffer :=
  let heart := fbPutglyph fb 0 0 (if v.blink then hbFull else hbHollow)
  match u.diagView with
  | .progress =>
    Oled.draw heart (⟨0, 2 * charW, ascii "DIAGNOSTIC"⟩ :: Ui.renderDiagProgress v.lines v)
  | .results => Ui.renderResults v.locals v.diag.result fb v.blink u.diagPage
  | .none => Ui.renderMenu v.lines u v heart

end MsxPulse.Firmware
