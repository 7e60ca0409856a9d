import MsxPulse.Library.Z80.Assemble
import MsxPulse.Library.Z80.Loops
import MsxPulse.Rom.Vdp

/-!
# The diagnostic ROM (main.asm)

The RAM test, the VRAM test, the two VDP address routines and the CPU test, line by line.
The four write loops and the four verify loops differ in their label, their pattern and the
instructions that reach the cell. Of what follows a test only the lines up to its failure
label are kept: they tell where both of its labels are.
-/

namespace MsxPulse.Rom

open Library.Z80

/-- The instructions under test in TestCPU, in their order. -/
inductive Use where
  | add
  | subSign
  | subZero
  | and
  | or
  | xor
  | inc
  | orLow
  | cpl
  | rlca
  | rla
  | exAf
  | exAfBack
  | exx
  | exxBack
  | xorA
  deriving DecidableEq

/-- The labels of the source, and a name for the place of each use. -/
inductive Label where
  | ramW1
  | ramR1
  | ramW2
  | ramR2
  | ramPass
  | ramFail
  | ramDone
  | vramW1
  | vramR1
  | vramW2
  | vramR2
  | vramPass
  | vramFail
  | vramDone
  | strPass
  | vdpSetWrite
  | vdpSetRead
  | printStr
  | testCpu
  | testCpuFail
  | use (u : Use)
  deriving DecidableEq

def ramStart : Word := 0xC000#16

def ramEnd : Word := 0xFFFF#16

def vramTestStart : Word := 0x1000#16

def vramTestEnd : Word := 0x3FFF#16

def vramName : Word := 0x0000#16

def cols : Word := 40#16

/-! ## The RAM test -/

def ramStore (pattern : Byte) : List (Line Label) := [.op (.ldAtHl pattern), .op (.inc .hl)]

/-- Before a verify loop, and before a write loop. -/
def ramAll : List (Line Label) :=
  [.op (.ld16 .hl (.lit ramStart)), .op (.ld16 .bc (.lit (ramEnd - ramStart + 1#16)))]

/-- "Pass n: write" -/
def ramWrite (loop : Label) (pattern : Byte) : List (Line Label) :=
  .op (.ld .d (.imm pattern)) :: ramAll ++ .label loop :: (ramStore pattern ++ countDown loop)

/-- "Pass n: verify" -/
def ramVerify (loop : Label) : List (Line Label) :=
  ramAll ++ .label loop :: (scanTurn (.ld .a .atHl) .ramFail ++ countDown loop)

/-- From the label of a test that passed to the one of a test that failed. -/
def report (pass fail done : Label) (row : Word) : List (Line Label) :=
  [ .label pass
  , .op (.ld16 .hl (.addr .strPass))
  , .op (.ld16 .de (.lit (vramName + cols * row + 22#16)))
  , .op (.call .printStr)
  , .op (.jr none done)
  , .label fail
  , .op (.ld .e (.reg .a)) ]

def ramReport : List (Line Label) := report .ramPass .ramFail .ramDone 5#16

def ramTest : List (Line Label) :=
  ramWrite .ramW1 0xAA#8 ++ ramVerify .ramR1 ++ ramWrite .ramW2 0x55#8 ++ ramVerify .ramR2 ++
    ramReport

/-! ## The VRAM test -/

def vramStore (pattern : Byte) : List (Line Label) :=
  [.op (.ld .a (.imm pattern)), .op (.out vdpData)]

/-- The address and the count that a loop starts with. -/
def vramAll (setAddress : Label) : List (Line Label) :=
  [ .op (.ld16 .hl (.lit vramTestStart))
  , .op (.call setAddress)
  , .op (.ld16 .bc (.lit (vramTestEnd - vramTestStart + 1#16))) ]

def vramWrite (loop : Label) (pattern : Byte) : List (Line Label) :=
  vramAll .vdpSetWrite ++ .label loop :: (vramStore pattern ++ countDown loop)

def vramVerify (loop : Label) (pattern : Byte) : List (Line Label) :=
  .op (.ld .d (.imm pattern)) :: vramAll .vdpSetRead ++
    .label loop :: (scanTurn (.inp vdpData) .vramFail ++ countDown loop)

def vramReport : List (Line Label) := report .vramPass .vramFail .vramDone 7#16

def vramTest : List (Line Label) :=
  vramWrite .vramW1 0xAA#8 ++ vramVerify .vramR1 0xAA#8 ++ vramWrite .vramW2 0x55#8 ++
    vramVerify .vramR2 0x55#8 ++ vramReport

/-- Sends HL, its high byte changed, to the control port. -/
def setAddress (entry : Label) (change : Arith) (mask : Byte) : List (Line Label) :=
  [ .label entry
  , .op (.ld .a (.reg .l))
  , .op (.out vdpCtrl)
  , .op (.ld .a (.reg .h))
  , .op (.arith change (.imm mask))
  , .op (.out vdpCtrl)
  , .op (.ret none) ]

def vdpSetWrite : List (Line Label) := setAddress .vdpSetWrite .or 0x40#8

def vdpSetRead : List (Line Label) := setAddress .vdpSetRead .and 0x3F#8

/-! ## TestCPU -/

/-- The end of a numbered check: "A=test number" and out. -/
def verdict (number : Byte) : List (Line Label) :=
  [.op (.ld .a (.imm number)), .op (.ret (some .nz))]

/-- A check that compares A. -/
def expect (value number : Byte) : List (Line Label) :=
  .op (.arith .cp (.imm value)) :: verdict number

/-- An instruction under test, on a byte. -/
def onByte (operand : Byte) (u : Use) (i : Instr Label) : List (Line Label) :=
  [.op (.ld .a (.imm operand)), .label (.use u), .op i]

/-- 8-bit addition -/
def check1 : List (Line Label) :=
  onByte 0x3C#8 .add (.arith .add (.imm 0x3C#8)) ++ expect 0x78#8 1#8

/-- subtraction goes negative, so sign flag (M) should be set -/
def check2 : List (Line Label) :=
  onByte 0x50#8 .subSign (.arith .sub (.imm 0x51#8)) ++ [.op (.jp (some .p) .testCpuFail)]

/-- Zero flag -/
def check3 : List (Line Label) :=
  onByte 0x42#8 .subZero (.arith .sub (.imm 0x42#8)) ++ verdict 3#8

def check4 : List (Line Label) := onByte 0xF0#8 .and (.arith .and (.imm 0x0F#8)) ++ verdict 4#8

def check5 : List (Line Label) :=
  onByte 0xF0#8 .or (.arith .or (.imm 0x0F#8)) ++ expect 0xFF#8 5#8

def check6 : List (Line Label) :=
  onByte 0xFF#8 .xor (.arith .xor (.imm 0xAA#8)) ++ expect 0x55#8 6#8

/-- 16-bit INC across byte boundary: the high byte -/
def check7High : List (Line Label) :=
  [ .op (.ld16 .hl (.lit 0x12FF#16))
  , .label (.use .inc)
  , .op (.inc .hl)
  , .op (.ld .a (.reg .h)) ] ++ expect 0x13#8 7#8

/-- The low byte, by its zero flag -/
def check7Low : List (Line Label) :=
  [.op (.ld .a (.reg .l)), .label (.use .orLow), .op (.arith .or (.reg .a))] ++ verdict 7#8

def check8 : List (Line Label) := onByte 0xA5#8 .cpl .cpl ++ expect 0x5A#8 8#8

/-- rotate left, bit 7 into carry -/
def check9 : List (Line Label) := onByte 0x80#8 .rlca .rlca ++ expect 0x01#8 9#8

/-- rotate left through carry -/
def check10 : List (Line Label) := .op .scf :: onByte 0x40#8 .rla .rla ++ expect 0x81#8 10#8

def check11 : List (Line Label) :=
  onByte 0x42#8 .exAf .exAf ++ onByte 0xFF#8 .exAfBack .exAf ++ expect 0x42#8 11#8

/-- EXX: B, and the bank that C is read from next -/
def check12High : List (Line Label) :=
  [ .op (.ld16 .bc (.lit 0x1234#16))
  , .label (.use .exx)
  , .op .exx
  , .op (.ld16 .bc (.lit 0xABCD#16))
  , .label (.use .exxBack)
  , .op .exx
  , .op (.ld .a (.reg .b)) ] ++ expect 0x12#8 12#8

def check12Low : List (Line Label) := .op (.ld .a (.reg .c)) :: expect 0x34#8 12#8

/-- No check has failed. -/
def testCpuPass : List (Line Label) :=
  [.label (.use .xorA), .op (.arith .xor (.reg .a)), .op (.ret none)]

def testCpuFail : List (Line Label) :=
  [.label .testCpuFail, .op (.ld .a (.imm 1#8)), .op (.ret none)]

def testCpu : List (Line Label) :=
  .label .testCpu :: check1 ++ check2 ++ check3 ++ check4 ++ check5 ++ check6 ++
    (check7High ++ check7Low) ++ check8 ++ check9 ++ check10 ++ check11 ++
    (check12High ++ check12Low) ++ testCpuPass ++ testCpuFail

end MsxPulse.Rom

namespace MsxPulse

open Library.Z80

/-- An assembled ROM: the routines stand somewhere in it. -/
structure Rom where
  program : Program Rom.Label
  ramTestAt : Word
  vramTestAt : Word
  ramPlaced : program.Placed ramTestAt Rom.ramTest
  vramPlaced : program.Placed vramTestAt Rom.vramTest
  setWritePlaced : program.Placed (program.addr .vdpSetWrite) Rom.vdpSetWrite
  setReadPlaced : program.Placed (program.addr .vdpSetRead) Rom.vdpSetRead
  testCpuPlaced : program.Placed (program.addr .testCpu) Rom.testCpu

namespace Rom

/-! ## An image with the routines in a row -/

def routines : List (Line Label) :=
  Rom.ramTest ++ (Rom.vramTest ++ (vdpSetWrite ++ (vdpSetRead ++ testCpu)))

theorem routines_placed (first second : List (Line Label)) (split : routines = first ++ second) :
    (assemble 0x4010#16 routines).Placed (0x4010#16 + BitVec.ofNat 16 (size first)) second := by
  have distinct : (labels routines).Nodup := by decide +kernel
  have fits : size routines ≤ 65536 := by decide +kernel
  rw [split] at distinct fits ⊢
  exact assemble_placed_part 0x4010#16 first second distinct fits

def image : Rom where
  program := assemble 0x4010#16 routines
  ramTestAt := 0x4010#16 + BitVec.ofNat 16 (size ([] : List (Line Label)))
  vramTestAt := 0x4010#16 + BitVec.ofNat 16 (size Rom.ramTest)
  ramPlaced := (routines_placed [] routines rfl).left
  vramPlaced := (routines_placed Rom.ramTest _ rfl).left
  setWritePlaced := (routines_placed (Rom.ramTest ++ Rom.vramTest) _
    (List.append_assoc ..).symm).left.at_label
  setReadPlaced := (routines_placed (Rom.ramTest ++ Rom.vramTest ++ vdpSetWrite)
    (vdpSetRead ++ testCpu) (by simp only [routines, List.append_assoc])).left.at_label
  testCpuPlaced := (routines_placed (Rom.ramTest ++ Rom.vramTest ++ vdpSetWrite ++ vdpSetRead)
    testCpu (by simp only [routines, List.append_assoc])).at_label

end Rom

end MsxPulse
