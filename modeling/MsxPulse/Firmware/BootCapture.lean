import MsxPulse.Firmware.BootDetect
import MsxPulse.Firmware.CaptureRing

/-!
# Capturing bus cycles for the boot detector (boot_capture.c)

The decoders, the drain of the memory and I/O rings, and the cadence watchdog.
-/

namespace MsxPulse.Firmware.BootCapture

/-- Positions of the active-low control lines in a raw word (ipc.h). -/
def rawBitRd : Nat := 24
def rawBitWr : Nat := 25
def rawBitMreq : Nat := 26
def rawBitIorq : Nat := 27
def rawBitM1 : Nat := 28

/-- `boot_capture_decode_mem`; `none` is its `false`. -/
def decodeMem (raw : U32) : Option BootBusEvent :=
  if bitSet raw rawBitMreq then none
  else
    let m1 := !bitSet raw rawBitM1
    let wr := !bitSet raw rawBitWr
    let kind := if m1 then .fetch else if wr then .memWrite else .memRead
    some
      { kind := kind
        addr := (raw &&& 0xFFFF#32).setWidth 16
        data := ((raw >>> 16) &&& 0xFF#32).setWidth 8
        dataValid := decide (kind ≠ .memRead) }

/-- `boot_capture_decode_io`; `none` is its `false`. -/
def decodeIo (raw : U32) : Option BootBusEvent :=
  if bitSet raw rawBitIorq then none
  else
    let wr := !bitSet raw rawBitWr
    some
      { kind := if wr then .ioWrite else .ioRead
        addr := (raw &&& 0xFFFF#32).setWidth 16
        data := ((raw >>> 16) &&& 0xFF#32).setWidth 8
        dataValid := wr }

/-- One turn of the loop body of `drain_ring`: decode, then feed. -/
def feedDecoded (dec : U32 → Option BootBusEvent) (s : BootDetect) (raw : U32) : BootDetect :=
  match dec raw with
  | some ev => s.feed ev
  | none => s

/-- `bd_dma_total` -/
def bdDmaTotal : RingCursor → DmaRing → RingCursor := RingCursor.dmaTotal

/-- The drain-cadence watchdog's statics. -/
structure Watchdog where
  lateDrains : U32
  maxGapUs : U32
  lastDrainUs : U64
  deriving DecidableEq

namespace Watchdog

def drainBudgetUs : U32 := 2000#32

def reset : Watchdog := ⟨0#32, 0#32, 0#64⟩

/-- The head of `boot_capture_drain`: the gap since the last drain, cut to 32 bits. -/
def observe (w : Watchdog) (nowUs : U64) : Watchdog :=
  let w :=
    if w.lastDrainUs ≠ 0#64 then
      let gap := (nowUs - w.lastDrainUs).setWidth 32
      { w with
        maxGapUs := if gap > w.maxGapUs then gap else w.maxGapUs
        lateDrains := if gap > drainBudgetUs then w.lateDrains + 1#32 else w.lateDrains }
    else w
  { w with lastDrainUs := nowUs }

end Watchdog

end MsxPulse.Firmware.BootCapture
