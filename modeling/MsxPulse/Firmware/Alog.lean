import MsxPulse.Firmware.Sdk

/-!
# The cart-read log (alog.c)
-/

namespace MsxPulse.Firmware

/-- The statics of alog.c that hold hardware handles. -/
structure Alog where
  pioOffset : Nat
  dmaCh : Int
  deriving DecidableEq

namespace Alog

def initial : Alog := ⟨0, -1⟩

def slotCount : U16 := 50#16
/-- `ALOG_TOTAL` -/
def total : Nat := 250

/-- `alog_arm_dma` -/
def armDma (a : Alog) : List SdkCall :=
  [.dma a.dmaCh (.configure
    { size := 32, writeIncrement := true, ringBits := none, dreq := .rxFifo .pio0 0
      chainTo := none, writeTo := .alogRaw, readFrom := .rxFifo .pio0 0
      count := some (BitVec.ofNat 32 total), trigger := true })]

/-- `alog_init` -/
def init (sdk : Sdk) : Alog × Sdk × List Call :=
  let a : Alog := ⟨sdk.offset .cartAddrLog, sdk.unclaimed⟩
  (a, sdk.claim, FwModule.alog.calls (
    [ .addProgram .pio0 .cartAddrLog
    , .sm .pio0 0 (.init a.pioOffset)
    , .sm .pio0 0 (.setConsecutivePindirs 0 32 false)
    , .sm .pio0 0 .clearFifos
    , .dma a.dmaCh .claim ] ++ a.armDma ++
    [ .sm .pio0 0 (.setEnabled true) ]))

/-- `alog_reset`: there is no test for an `alog_init` that never ran. -/
def reset (a : Alog) : List Call := FwModule.alog.calls (
  [ .sm .pio0 0 (.setEnabled false)
  , .dma a.dmaCh .abort
  , .sm .pio0 0 .clearFifos
  , .sm .pio0 0 .restart
  , .sm .pio0 0 (.execJmp a.pioOffset) ] ++ a.armDma ++
  [ .sm .pio0 0 (.setEnabled true) ])

/-- `alog_captured` reads the write address of a claimed channel only. -/
def captured (a : Alog) : List Call :=
  if a.dmaCh < 0 then [] else FwModule.alog.calls [.dma a.dmaCh .readRegs]

/-- `alog_print_slot` -/
def printSlot (a : Alog) (slot : U16) : List Call := if slot ≥ slotCount then [] else a.captured

/-- `alog_print_debug` -/
def printDebug (a : Alog) : List Call :=
  FwModule.alog.calls [.sm .pio0 0 .readRegs, .dma a.dmaCh .readRegs] ++ a.captured ++
    FwModule.alog.calls [.clearFdebug .pio0]

end Alog

end MsxPulse.Firmware
