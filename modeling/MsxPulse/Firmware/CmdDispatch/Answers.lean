import MsxPulse.Firmware.Alog
import MsxPulse.Firmware.CmdDispatch.Boot
import MsxPulse.Firmware.CmdDispatch.DumpHex
import MsxPulse.Firmware.MainLoop
import MsxPulse.Firmware.UsbSerial.LineFraming
import MsxPulse.Library.TextSize

/-!
# The lines that answer a command (cmd_dispatch.c, alog.c)

What the handlers write, from what they read when they run. A line stands here as it is
before `snprintf` and the ring cut it to 79 characters.
-/

namespace MsxPulse.Firmware

open Library CString
open UsbSerial (terminated)

/-- The registers that `alog_print_debug` reads. -/
structure AlogRegs where
  smPc : U32
  smInstr : U32
  fdebug : U32
  flevel : U32
  ctrl : U32
  dmaWa : U32
  dmaCount : U32
  dmaCtrl : U32
  gpioIn : U32

/-- What the handlers find when they run. -/
structure Readings where
  /-- GP0..31 over the second that PINS takes. -/
  seenHigh : U32
  seenLow : U32
  /-- /RESET and the log's count before, early in, amid and after the pulse of RESET. -/
  resetIn : Fin 4 → Bool
  resetCap : Fin 4 → U16
  captured : U16
  alogRaw : U16 → U32
  alog : Alog
  regs : AlogRegs
  v5 : Volts
  v12 : Volts
  vm12 : Volts
  rails : RailStatus
  probe : BusProbeSnapshot
  sram : CharArray CartServe.romSramSize
  line : CharArray usbOutLineLen
  diag : BootDiag
  boot : CmdDispatch.BootStack

namespace CmdDispatch

/-- `%<width>u` -/
def padded (width n : Nat) : List U8 :=
  List.replicate (width - (decimal n).length) blank ++ decimal n

/-- `%ld` -/
def signed (z : Int) : List U8 := if z < 0 then ascii "-" ++ decimal z.natAbs else decimal z.natAbs

/-- A flag printed as a number. -/
def digit (b : Bool) : List U8 := decimal b.toNat

section Handlers

variable (r : Readings)

/-! ## PINS -/

/-- `STATUS(pin)` -/
def pinStatus (pin : Nat) : List U8 :=
  if bitSet r.seenHigh pin && bitSet r.seenLow pin then ascii "T"
  else if bitSet r.seenHigh pin then ascii "H"
  else ascii "L"

def pinRow (title : List U8) (pins : List (List U8 × Nat)) : List U8 :=
  title ++ pins.flatMap fun pin => ascii " " ++ pin.1 ++ ascii "=" ++ pinStatus r pin.2

def addrEven : List (List U8 × Nat) :=
  [(ascii "A4", 0), (ascii "A2", 1), (ascii "A0", 2), (ascii "A13", 3), (ascii "A8", 4),
   (ascii "A6", 5), (ascii "A10", 6), (ascii "A15", 7)]

def addrOdd : List (List U8 × Nat) :=
  [(ascii "A5", 8), (ascii "A3", 9), (ascii "A1", 10), (ascii "A14", 11), (ascii "A12", 12),
   (ascii "A7", 13), (ascii "A11", 14), (ascii "A9", 15)]

def dataBus : List (List U8 × Nat) :=
  [(ascii "D6", 16), (ascii "D7", 17), (ascii "D4", 18), (ascii "D5", 19), (ascii "D2", 20),
   (ascii "D3", 21), (ascii "D0", 22), (ascii "D1", 23)]

def ctrlPins : List (List U8 × Nat) :=
  [(ascii "/RD", 24), (ascii "/WR", 25), (ascii "/MREQ", 26), (ascii "/IORQ", 27), (ascii "/M1", 28),
   (ascii "/SLTSL", 29), (ascii "CLK", 31)]

def cmdPins : List (List U8) :=
  [ ascii "PIN TOGGLE TEST (1.0s sample):"
  , pinRow r (ascii "A even:") addrEven
  , pinRow r (ascii "A odd: ") addrOdd
  , pinRow r (ascii "D bus: ") dataBus
  , pinRow r (ascii "CTRL:  ") ctrlPins
  , ascii "raw HI=$" ++ hex 8 r.seenHigh.toNat ++ ascii " LO=$" ++ hex 8 r.seenLow.toNat ]

/-! ## RESET -/

/-- The lines of `cmd_reset`. -/
def cmdResetLines : List (List U8) :=
  [ ascii "RESET /RESET: pre=" ++ digit (r.resetIn 0) ++ ascii " ass=" ++ digit (r.resetIn 1) ++
      ascii " mid=" ++ digit (r.resetIn 2) ++ ascii " post=" ++ digit (r.resetIn 3)
  , ascii "RESET cap:    pre=" ++ decimal (r.resetCap 0).toNat ++ ascii " ass=" ++
      decimal (r.resetCap 1).toNat ++ ascii " mid=" ++ decimal (r.resetCap 2).toNat ++
      ascii " post=" ++ decimal (r.resetCap 3).toNat
  , ascii "MSX /RESET asserted 100ms (alog re-armed)" ]

/-! ## STATUS and RAILS -/

def railWord (status : U8) : List U8 :=
  if status = 0#8 then ascii "OK" else if status = 1#8 then ascii "WARN" else ascii "FAIL"

def cmdStatus : List (List U8) :=
  [ ascii "MSXDOC v0.1  (serve + boot-detect)"
  , ascii "+5V:" ++ r.v5.fmt 0 2 ++ ascii "V " ++ railWord r.rails.status5v ++ ascii "  +12V:" ++
      r.v12.fmt 0 1 ++ ascii "V " ++ railWord r.rails.status12v ++ ascii "  -12V:" ++
      r.vm12.fmt 0 1 ++ ascii "V " ++ railWord r.rails.statusM12v ]

/-- `stag[status < 4 ? status : 2]` -/
def stag (status : U8) : List U8 :=
  if status = 0#8 then ascii "OK" else if status = 1#8 then ascii "WARN"
  else if status = 3#8 then ascii "n/c" else ascii "FAIL"

def cmdRails : List (List U8) :=
  [ ascii "+5V:  " ++ r.v5.fmt 5 2 ++ ascii "V  " ++ stag r.rails.status5v
  , ascii "+12V: " ++ r.v12.fmt 5 1 ++ ascii "V  " ++ stag r.rails.status12v
  , ascii "-12V: " ++ r.vm12.fmt 5 1 ++ ascii "V  " ++ stag r.rails.statusM12v ]

/-! ## DASH -/

/-- `gl[state]` -/
def gl : LineState → U8
  | .active => 126
  | .stuckHi => 72
  | .stuckLo => 76

/-- `reset_status_t` as a number. -/
def resetNumber : ResetStatus → Nat
  | .running => 0
  | .inReset => 1
  | .pulsing => 2
  | .drivenCart => 3

def cmdDash : List (List U8) :=
  let s := r.probe
  [ (if s.clkHz = 0#32 then ascii "CLK: ABSENT" else ascii "CLK: " ++ decimal s.clkHz.toNat ++
      ascii " Hz") ++ ascii "   RESET: " ++ decimal (resetNumber s.reset)
  , ascii "A0-15: " ++ List.ofFn fun i => gl (s.addr i)
  , ascii "D0-7 : " ++ List.ofFn fun i => gl (s.data i)
  , ascii "CTRL : RD" ++ [gl (s.ctrl .rd)] ++ ascii " WR" ++ [gl (s.ctrl .wr)] ++ ascii " MREQ" ++
      [gl (s.ctrl .mreq)] ++ ascii " IORQ" ++ [gl (s.ctrl .iorq)] ++ ascii " M1" ++
      [gl (s.ctrl .m1)] ++ ascii " SLT" ++ [gl (s.ctrl .sltsl)] ++ ascii " WAIT" ++
      [gl (s.ctrl .wait)] ]

/-! ## ALOG -/

/-- `alog_print_status` -/
def alogPrintStatus : List (List U8) :=
  [ascii "ALOG: " ++ decimal r.captured.toNat ++ ascii "/250 events captured (50 slots x 5)"]

/-- One turn of the loop of `alog_print_slot`. -/
def alogEntry (idx : U16) : List U8 :=
  if idx ≥ r.captured then ascii "  [" ++ padded 3 idx.toNat ++ ascii "] -"
  else
    let raw := r.alogRaw idx
    ascii "  [" ++ padded 3 idx.toNat ++ ascii "] $" ++ hex 4 (raw &&& 0xFFFF#32).toNat ++
      ascii "  /RD=" ++ digit (bitSet raw 24) ++ ascii " /WR=" ++ digit (bitSet raw 25) ++
      ascii " /M1=" ++ digit (bitSet raw 28) ++ ascii "  raw=$" ++ hex 8 raw.toNat

/-- `alog_print_slot` -/
def alogPrintSlot (slot : U16) : List (List U8) :=
  if slot ≥ Alog.slotCount then [ascii "ALOG: slot out of range (0-49)"]
  else
    (ascii "ALOG slot " ++ decimal slot.toNat ++ ascii " (count=" ++ decimal r.captured.toNat ++
      ascii "):") ::
      (List.range 5).map fun i => alogEntry r (slot * 5#16 + BitVec.ofNat 16 i)

/-- `alog_print_debug` -/
def alogPrintDebug : List (List U8) :=
  let g := r.regs
  [ ascii "ALOG DEBUG:"
  , ascii "  SM en=" ++ digit (bitSet g.ctrl 0) ++ ascii " pc=" ++ decimal g.smPc.toNat ++
      ascii " rel=" ++ signed (g.smPc - BitVec.ofNat 32 r.alog.pioOffset).toInt ++
      ascii " instr=$" ++ hex 4 g.smInstr.toNat ++ ascii " off=" ++ decimal r.alog.pioOffset
  , ascii "  fdebug=$" ++ hex 8 g.fdebug.toNat ++ ascii " rxstall=" ++ digit (bitSet g.fdebug 28) ++
      ascii " txstall=" ++ digit (bitSet g.fdebug 24) ++ ascii " flevel=$" ++ hex 8 g.flevel.toNat
  , ascii "  DMA ch" ++ signed r.alog.dmaCh ++ ascii " busy=" ++ digit (bitSet g.dmaCtrl 26) ++
      ascii " wa=$" ++ hex 8 g.dmaWa.toNat ++ ascii " cnt=" ++ decimal g.dmaCount.toNat ++
      ascii " cap=" ++ decimal r.captured.toNat ++ ascii "/250"
  , ascii "  gpio=$" ++ hex 8 g.gpioIn.toNat ++ ascii " /SLTSL=" ++ digit (bitSet g.gpioIn 29) ++
      ascii " /RD=" ++ digit (bitSet g.gpioIn 24) ++ ascii " /M1=" ++ digit (bitSet g.gpioIn 28) ]

/-! ## EMU OFF and BOOT -/

/-- The message has a dash in it that takes three bytes. -/
def emuOffLine : List U8 :=
  ascii "ROM emulator DISABLED " ++ [0xE2, 0x80, 0x94] ++ ascii " power-cycle to re-enable"

/-- The lines of the report that BOOT has room for. -/
def bootReport : List (List U8) :=
  if r.diag.result.passesRun = 0 then []
  else (lines (text (r.diag.result.formatReport r.boot.causes r.boot.buf.mem).mem)).map (List.take 77)

end Handlers

/-- What `cmd_dispatch` writes, line by line; UPDATE does not return. -/
def answer (r : Readings) (cmd : ParsedCmd) : List (List U8) :=
  match cmd.type with
  | .emuOff => [terminated emuOffLine]
  | .pins => (cmdPins r).map terminated
  | .reset => (cmdResetLines r).map terminated
  | .alogStatus => (alogPrintStatus r).map terminated
  | .alogReset => [ascii "ALOG: cleared, PIO+DMA re-armed\r\n"]
  | .alogDebug => (alogPrintDebug r).map terminated
  | .alogSlot => (alogPrintSlot r cmd.argAddr).map terminated
  | .help => UsbSerial.cmdHelp
  | .status => (cmdStatus r).map terminated
  | .rails => (cmdRails r).map terminated
  | .dumpHex => (cmdDumpHex r.sram.mem cmd.argAddr r.line).getD []
  | .boot => bootBanner :: (bootReport r).map terminated
  | .dash => (cmdDash r).map terminated
  | .update | .unknown => []

/-! ## Every line fits -/

/-- What fits a line together with its CRLF. -/
abbrev Fits (content : List U8) : Prop := Sized 77 content

/-- The ranges of the C types, and voltages below a billion. -/
structure Sane (r : Readings) : Prop where
  v5 : r.v5.Short 13
  v12 : r.v12.Short 13
  vm12 : r.vm12.Short 13
  channel : r.alog.dmaCh.natAbs ≤ 2 ^ 31
  offset : r.alog.pioOffset < 2 ^ 32

section Sizes

variable {r : Readings}

theorem sized_digit (b : Bool) : Sized 1 (digit b) :=
  sized_decimal (by decide) (by cases b <;> decide)

theorem sized_signed {z : Int} (small : z.natAbs ≤ 2 ^ 31) : Sized 11 (signed z) := by
  have number : Sized 10 (decimal z.natAbs) :=
    sized_decimal (by decide) (Nat.lt_of_le_of_lt small (by decide))
  exact sized_ite (Sized.le ((sized_ascii rfl).append number) (by decide)) (number.le (by decide))

theorem sized_padded (v : U16) : Sized 5 (padded 3 v.toNat) := by
  have number := sized_decimal16 v
  refine ⟨Printable.append ?_ number.printable, ?_⟩
  · intro b inside
    rw [List.eq_of_mem_replicate inside]
    exact BitVec.le_refl blank
  · rw [padded, List.length_append, List.length_replicate]
    have short := number.length
    omega

theorem sized_pinStatus (pin : Nat) : Sized 1 (pinStatus r pin) :=
  sized_ite (sized_literal rfl (by decide)) (sized_ite (sized_literal rfl (by decide))
    (sized_literal rfl (by decide)))

theorem fits_pinRow {title : List U8} {pins : List (List U8 × Nat)} {k : Nat} (ht : Sized 7 title)
    (names : ∀ pin ∈ pins, Sized k pin.1) (room : 7 + (1 + k + 1 + 1) * pins.length ≤ 77) :
    Fits (pinRow r title pins) := by
  refine Sized.le (ht.append (Sized.flatMap fun pin member => ?_)) room
  exact Sized.le ((((sized_ascii rfl).append (names pin member)).append (sized_ascii rfl)).append
    (sized_pinStatus pin.2)) (Nat.le_refl _)

theorem sized_railWord (status : U8) : Sized 4 (railWord status) :=
  sized_ite (sized_literal rfl (by decide)) (sized_ite (sized_literal rfl (by decide))
    (sized_literal rfl (by decide)))

theorem sized_stag (status : U8) : Sized 4 (stag status) :=
  sized_ite (sized_literal rfl (by decide)) (sized_ite (sized_literal rfl (by decide))
    (sized_ite (sized_literal rfl (by decide)) (sized_literal rfl (by decide))))

theorem sized_gl (state : LineState) : Sized 1 [gl state] :=
  sized_singleton (by cases state <;> decide)

theorem sized_glyphs {w : Nat} (f : Fin w → LineState) : Sized w (List.ofFn fun i => gl (f i)) :=
  Sized.ofFn fun i => sized_gl (f i)

/-! ### Handler by handler -/

theorem fits_cmdPins (r : Readings) : ∀ content ∈ cmdPins r, Fits content := by
  unfold cmdPins
  simp only [List.forall_mem_cons, List.not_mem_nil, false_imp_iff, implies_true, and_true]
  refine ⟨sized_literal rfl (by decide), ?_, ?_, ?_, ?_, ?_⟩
  · refine fits_pinRow (k := 3) (sized_literal rfl (by decide)) ?_ (by decide)
    simp only [addrEven, List.forall_mem_cons, List.not_mem_nil, false_imp_iff, implies_true, and_true]
    refine ⟨?_, ?_, ?_, ?_, ?_, ?_, ?_, ?_⟩ <;> exact sized_literal rfl (by decide)
  · refine fits_pinRow (k := 3) (sized_literal rfl (by decide)) ?_ (by decide)
    simp only [addrOdd, List.forall_mem_cons, List.not_mem_nil, false_imp_iff, implies_true, and_true]
    refine ⟨?_, ?_, ?_, ?_, ?_, ?_, ?_, ?_⟩ <;> exact sized_literal rfl (by decide)
  · refine fits_pinRow (k := 3) (sized_literal rfl (by decide)) ?_ (by decide)
    simp only [dataBus, List.forall_mem_cons, List.not_mem_nil, false_imp_iff, implies_true, and_true]
    refine ⟨?_, ?_, ?_, ?_, ?_, ?_, ?_, ?_⟩ <;> exact sized_literal rfl (by decide)
  · refine fits_pinRow (k := 6) (sized_literal rfl (by decide)) ?_ (by decide)
    simp only [ctrlPins, List.forall_mem_cons, List.not_mem_nil, false_imp_iff, implies_true, and_true]
    refine ⟨?_, ?_, ?_, ?_, ?_, ?_, ?_⟩ <;> exact sized_literal rfl (by decide)
  · exact Sized.le ((((sized_ascii rfl).append (sized_hex32 (by decide) (by decide) _)).append
      (sized_ascii rfl)).append (sized_hex32 (by decide) (by decide) _)) (by decide)

theorem fits_cmdResetLines (r : Readings) : ∀ content ∈ cmdResetLines r, Fits content := by
  unfold cmdResetLines
  simp only [List.forall_mem_cons, List.not_mem_nil, false_imp_iff, implies_true, and_true]
  refine ⟨?_, ?_, sized_literal rfl (by decide)⟩
  · exact Sized.le ((((((((sized_ascii rfl).append (sized_digit _)).append (sized_ascii rfl)).append
      (sized_digit _)).append (sized_ascii rfl)).append (sized_digit _)).append
      (sized_ascii rfl)).append (sized_digit _)) (by decide)
  · exact Sized.le ((((((((sized_ascii rfl).append (sized_decimal16 _)).append
      (sized_ascii rfl)).append (sized_decimal16 _)).append (sized_ascii rfl)).append
      (sized_decimal16 _)).append (sized_ascii rfl)).append (sized_decimal16 _)) (by decide)

theorem Sane.fits_cmdStatus (sane : Sane r) : ∀ content ∈ cmdStatus r, Fits content := by
  unfold cmdStatus
  simp only [List.forall_mem_cons, List.not_mem_nil, false_imp_iff, implies_true, and_true]
  refine ⟨sized_literal rfl (by decide), ?_⟩
  have v5 := sane.v5 0 (by decide) 2 (by decide)
  have v12 := sane.v12 0 (by decide) 1 (by decide)
  have vm12 := sane.vm12 0 (by decide) 1 (by decide)
  exact Sized.le (((((((((((sized_ascii rfl).append v5).append (sized_ascii rfl)).append
    (sized_railWord _)).append (sized_ascii rfl)).append v12).append
    (sized_ascii rfl)).append (sized_railWord _)).append (sized_ascii rfl)).append
    vm12).append (sized_ascii rfl) |>.append (sized_railWord _)) (by decide)

theorem sized_rail {label volts : List U8} (title : Sized 6 label) (number : Sized 13 volts)
    (status : U8) : Sized 77 (label ++ volts ++ ascii "V  " ++ stag status) :=
  Sized.le (((title.append number).append (sized_ascii rfl)).append (sized_stag status)) (by decide)

theorem Sane.fits_cmdRails (sane : Sane r) : ∀ content ∈ cmdRails r, Fits content := by
  unfold cmdRails
  simp only [List.forall_mem_cons, List.not_mem_nil, false_imp_iff, implies_true, and_true]
  refine ⟨?_, ?_, ?_⟩
  · exact sized_rail (sized_literal rfl (by decide)) (sane.v5 5 (by decide) 2 (by decide)) _
  · exact sized_rail (sized_literal rfl (by decide)) (sane.v12 5 (by decide) 1 (by decide)) _
  · exact sized_rail (sized_literal rfl (by decide)) (sane.vm12 5 (by decide) 1 (by decide)) _

theorem fits_cmdDash (r : Readings) : ∀ content ∈ cmdDash r, Fits content := by
  unfold cmdDash
  simp only [List.forall_mem_cons, List.not_mem_nil, false_imp_iff, implies_true, and_true]
  refine ⟨?_, ?_, ?_, ?_⟩
  · have clk : Sized 18 (if r.probe.clkHz = 0#32 then ascii "CLK: ABSENT"
        else ascii "CLK: " ++ decimal r.probe.clkHz.toNat ++ ascii " Hz") :=
      sized_ite (sized_literal rfl (by decide)) (Sized.le (((sized_ascii rfl).append
        (sized_decimal32 _)).append (sized_ascii rfl)) (by decide))
    have reset : Sized 1 (decimal (resetNumber r.probe.reset)) :=
      sized_decimal (by decide) (by cases r.probe.reset <;> decide)
    exact Sized.le ((clk.append (sized_ascii rfl)).append reset) (by decide)
  · exact Sized.le ((sized_ascii rfl).append (sized_glyphs _)) (by decide)
  · exact Sized.le ((sized_ascii rfl).append (sized_glyphs _)) (by decide)
  · exact Sized.le ((((((((((((((sized_ascii rfl).append (sized_gl _)).append
      (sized_ascii rfl)).append (sized_gl _)).append (sized_ascii rfl)).append (sized_gl _)).append
      (sized_ascii rfl)).append (sized_gl _)).append (sized_ascii rfl)).append (sized_gl _)).append
      (sized_ascii rfl)).append (sized_gl _)).append (sized_ascii rfl)).append (sized_gl _))
      (by decide)

theorem fits_alogPrintStatus (r : Readings) : ∀ content ∈ alogPrintStatus r, Fits content := by
  unfold alogPrintStatus
  simp only [List.forall_mem_singleton]
  exact Sized.le (((sized_ascii rfl).append (sized_decimal16 _)).append (sized_ascii rfl)) (by decide)

theorem fits_alogEntry (r : Readings) (idx : U16) : Fits (alogEntry r idx) := by
  refine sized_ite ?_ ?_
  · exact Sized.le (((sized_ascii rfl).append (sized_padded idx)).append (sized_ascii rfl))
      (by decide)
  · exact Sized.le ((((((((((((sized_ascii rfl).append (sized_padded idx)).append
      (sized_ascii rfl)).append (sized_hex32 (by decide) (by decide) _)).append
      (sized_ascii rfl)).append (sized_digit _)).append (sized_ascii rfl)).append
      (sized_digit _)).append (sized_ascii rfl)).append (sized_digit _)).append
      (sized_ascii rfl)).append (sized_hex32 (by decide) (by decide) _)) (by decide)

theorem fits_alogPrintSlot (r : Readings) (slot : U16) :
    ∀ content ∈ alogPrintSlot r slot, Fits content := by
  unfold alogPrintSlot
  split
  · simp only [List.forall_mem_singleton]
    exact sized_literal rfl (by decide)
  · simp only [List.forall_mem_cons, List.forall_mem_map]
    refine ⟨?_, fun i _ => fits_alogEntry r _⟩
    exact Sized.le (((((sized_ascii rfl).append (sized_decimal16 slot)).append
      (sized_ascii rfl)).append (sized_decimal16 _)).append (sized_ascii rfl)) (by decide)

theorem natAbs_toInt_le (v : U32) : v.toInt.natAbs ≤ 2 ^ 31 := by
  have below := BitVec.toInt_lt (x := v)
  have above := BitVec.le_toInt (x := v)
  omega

theorem Sane.fits_alogPrintDebug (sane : Sane r) : ∀ content ∈ alogPrintDebug r, Fits content := by
  have hex8 (v : U32) : Sized 8 (hex 8 v.toNat) := sized_hex32 (by decide) (by decide) v
  have hex4 (v : U32) : Sized 8 (hex 4 v.toNat) := sized_hex32 (by decide) (by decide) v
  have offset : Sized 10 (decimal r.alog.pioOffset) :=
    sized_decimal (by decide) (Nat.lt_trans sane.offset (by decide))
  unfold alogPrintDebug
  simp only [List.forall_mem_cons, List.not_mem_nil, false_imp_iff, implies_true, and_true]
  refine ⟨sized_literal rfl (by decide), ?_, ?_, ?_, ?_⟩
  · exact Sized.le ((((((((((sized_ascii rfl).append (sized_digit _)).append
      (sized_ascii rfl)).append (sized_decimal32 _)).append (sized_ascii rfl)).append
      (sized_signed (natAbs_toInt_le _))).append (sized_ascii rfl)).append (hex4 _)).append
      (sized_ascii rfl)).append offset) (by decide)
  · exact Sized.le ((((((((sized_ascii rfl).append (hex8 _)).append (sized_ascii rfl)).append
      (sized_digit _)).append (sized_ascii rfl)).append (sized_digit _)).append
      (sized_ascii rfl)).append (hex8 _)) (by decide)
  · exact Sized.le (((((((((((sized_ascii rfl).append (sized_signed sane.channel)).append
      (sized_ascii rfl)).append (sized_digit _)).append (sized_ascii rfl)).append (hex8 _)).append
      (sized_ascii rfl)).append (sized_decimal32 _)).append (sized_ascii rfl)).append
      (sized_decimal16 _)).append (sized_ascii rfl)) (by decide)
  · exact Sized.le ((((((((sized_ascii rfl).append (hex8 _)).append (sized_ascii rfl)).append
      (sized_digit _)).append (sized_ascii rfl)).append (sized_digit _)).append
      (sized_ascii rfl)).append (sized_digit _)) (by decide)

theorem fits_emuOffLine : Fits emuOffLine := by
  have dash : Sized 3 [0xE2, 0x80, 0x94] := ⟨by unfold Printable; decide, by decide⟩
  exact Sized.le (((sized_ascii rfl).append dash).append (sized_ascii rfl)) (by decide)

theorem fits_bootReport (r : Readings) : ∀ content ∈ bootReport r, Fits content := by
  unfold bootReport
  split
  · exact fun _ inside => absurd inside List.not_mem_nil
  · rw [r.diag.result.text_formatReport r.boot.causes r.boot.buf.length_mem]
    simp only [List.forall_mem_map]
    intro l inside
    refine ⟨fun b here => ?_, List.length_take_le 77 l⟩
    have causes : ∀ l ∈ lines (r.diag.result.fullCauses.take 399), Printable l := by
      rw [BootDiagResult.fullCauses_eq]
      exact printable_lines_take r.diag.result.printable_causeLines 399
    have body : ∀ l ∈ r.diag.result.bodyLines (lines (r.diag.result.fullCauses.take 399)) ++
        [r.diag.result.lastLine], Printable l := by
      rw [List.forall_mem_append, List.forall_mem_singleton]
      exact ⟨r.diag.result.printable_bodyLines causes, r.diag.result.printable_lastLine⟩
    exact printable_lines_take body 799 l inside b (List.mem_of_mem_take here)

theorem dumpHex_eq (r : Readings) (argAddr : U16) : ∃ contents : List (List U8),
    cmdDumpHex r.sram.mem argAddr r.line = some (contents.map terminated) ∧
      contents.length = 16 ∧ ∀ content ∈ contents, Fits content := by
  have low := dumpOffset_le argAddr
  let content (row : Nat) : List U8 :=
    labelText (0x4000 + (dumpOffset argAddr).toNat + 16 * row) ++
      ((r.sram.mem.drop ((dumpOffset argAddr).toNat + 16 * row)).take 16).flatMap
        fun b => ascii " " ++ hex 2 b.toNat
  refine ⟨(List.range 16).map content, ?_, ?_, ?_⟩
  · rw [List.map_map]
    refine mapM_eq_some_map fun row member => ?_
    rw [dumpRow_eq r.sram.length_mem low r.line (List.mem_range.mp member)]
    rfl
  · rw [List.length_map, List.length_range]
  · simp only [List.forall_mem_map]
    intro row member
    have row_lt := List.mem_range.mp member
    have label : Sized 6 (labelText (0x4000 + (dumpOffset argAddr).toNat + 16 * row)) :=
      Sized.le (((sized_ascii rfl).append (sized_hex (k := 4) (by decide) (by decide)
        (by omega))).append (sized_ascii rfl)) (by decide)
    have cells (bytes : List U8) : Sized (3 * bytes.length)
        (bytes.flatMap fun b => ascii " " ++ hex 2 b.toNat) :=
      Sized.flatMap fun b _ => Sized.le ((sized_ascii rfl).append
        (sized_hex (k := 2) (by decide) (by decide) b.isLt)) (by decide)
    refine Sized.le (label.append (cells _)) ?_
    have few := List.length_take_le 16 (r.sram.mem.drop ((dumpOffset argAddr).toNat + 16 * row))
    omega

/-- A literal with its CRLF. -/
theorem terminated_literal {cs : List Char} (ds : List Char) (h : cs = ds ++ ['\r', '\n']) :
    ascii (String.ofList cs) = terminated (ascii (String.ofList ds)) :=
  ascii_append h

theorem alogReset_line : ascii "ALOG: cleared, PIO+DMA re-armed\r\n" =
    terminated (ascii "ALOG: cleared, PIO+DMA re-armed") := terminated_literal _ rfl

theorem bootBanner_line : bootBanner = terminated
    (ascii "Boot diagnostic started; watch OLED. Run BOOT again when DONE for the report.") :=
  terminated_literal _ rfl

/-- Every answer but that of HELP is made of lines that fit. -/
theorem Sane.answer_fits (sane : Sane r) {cmd : ParsedCmd} (other : cmd.type ≠ .help) :
    ∃ contents : List (List U8), answer r cmd = contents.map terminated ∧
      ∀ content ∈ contents, Fits content := by
  unfold answer
  obtain ⟨type, arg⟩ := cmd
  cases type with
  | help => exact absurd rfl other
  | status => exact ⟨_, rfl, sane.fits_cmdStatus⟩
  | reset => exact ⟨_, rfl, fits_cmdResetLines r⟩
  | dumpHex =>
    obtain ⟨contents, written, -, fits⟩ := dumpHex_eq r arg
    exact ⟨contents, by rw [written, Option.getD_some], fits⟩
  | rails => exact ⟨_, rfl, sane.fits_cmdRails⟩
  | emuOff => exact ⟨[_], rfl, List.forall_mem_singleton.mpr fits_emuOffLine⟩
  | pins => exact ⟨_, rfl, fits_cmdPins r⟩
  | alogStatus => exact ⟨_, rfl, fits_alogPrintStatus r⟩
  | alogReset =>
    refine ⟨[ascii "ALOG: cleared, PIO+DMA re-armed"], ?_, ?_⟩
    · rw [List.map_singleton, ← alogReset_line]
    · exact List.forall_mem_singleton.mpr (sized_literal rfl (by decide))
  | alogSlot => exact ⟨_, rfl, fits_alogPrintSlot r arg⟩
  | alogDebug => exact ⟨_, rfl, sane.fits_alogPrintDebug⟩
  | boot =>
    refine ⟨ascii "Boot diagnostic started; watch OLED. Run BOOT again when DONE for the report." ::
      bootReport r, ?_, ?_⟩
    · rw [List.map_cons, ← bootBanner_line]
    · exact List.forall_mem_cons.mpr ⟨sized_literal rfl (by decide), fits_bootReport r⟩
  | dash => exact ⟨_, rfl, fits_cmdDash r⟩
  | update => exact ⟨[], rfl, by simp⟩
  | unknown => exact ⟨[], rfl, by simp⟩

theorem Fits.handlerLine {content : List U8} (fits : Fits content) :
    UsbSerial.HandlerLine content :=
  UsbSerial.handlerLine_of_printable fits.printable

theorem Fits.length_terminated {content : List U8} (fits : Fits content) :
    (terminated content).length ≤ 79 := by
  rw [terminated, List.length_append]
  exact Nat.add_le_add_right fits.length 2

/-- Up to what stands behind the NUL of each line, `cmd_boot` writes its answer. -/
theorem cmdBoot_ring {r : Readings} {cmd : ParsedCmd} (boot : cmd.type = .boot) (ring : UsbOutRing) :
    ∃ written : List (List U8), written.map UsbSerial.cut = (answer r cmd).map UsbSerial.cut ∧
      (cmdBoot r.diag r.boot ring).2 = written.foldl UsbSerial.writeLine ring := by
  have result : r.diag.start.result = r.diag.result := by rw [BootDiag.start_eq]
  have lines_answer : answer r cmd = bootBanner :: (bootReport r).map terminated := by
    simp only [answer, boot]
  rw [lines_answer]
  unfold cmdBoot bootReport
  simp only []
  rw [result]
  by_cases none : r.diag.result.passesRun = 0
  · rw [if_pos none, if_pos none]
    exact ⟨[bootBanner], rfl, rfl⟩
  · rw [if_neg none, if_neg none]
    generalize printed : text (r.diag.result.formatReport r.boot.causes r.boot.buf.mem).mem = report
    have nonzero : ∀ l ∈ lines report, ∀ b ∈ l, b ≠ 0 := fun l member b here =>
      ne_zero_of_mem_text (printed ▸ mem_of_mem_lines member here)
    obtain ⟨written, content, looped⟩ :=
      BootLoop.ring_foldl nonzero ⟨r.boot.line, UsbSerial.writeLine ring bootBanner⟩
    refine ⟨bootBanner :: written, ?_, looped⟩
    rw [List.map_cons, List.map_cons, content, List.map_map, List.map_map]
    congr 1
    refine List.map_congr_left fun l member => ?_
    have kept : ∀ b ∈ terminated (l.take 77), b ≠ 0 := by
      intro b inside
      rcases List.mem_append.mp inside with old | ending
      · exact nonzero l member b (List.mem_of_mem_take old)
      · rcases List.mem_pair.mp ending with rfl | rfl <;> decide
    have short : (terminated (l.take 77)).length ≤ 79 := by
      rw [terminated, List.length_append]
      exact Nat.add_le_add_right (List.length_take_le 77 l) 2
    show terminated (l.take 77) = UsbSerial.cut (terminated (l.take 77))
    rw [UsbSerial.cut, text_of_ne_zero kept]
    exact (List.take_of_length_le short).symm

end Sizes

end CmdDispatch

end MsxPulse.Firmware
