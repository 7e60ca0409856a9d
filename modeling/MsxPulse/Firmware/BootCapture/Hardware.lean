import MsxPulse.Firmware.Sdk

/-!
# The capture hardware (boot_capture.c, txn_capture.c)

The handles of the memory, I/O and read captures and the SDK calls that arm,
re-arm and stop them.
-/

namespace MsxPulse.Firmware

/-- `bd_arm_dma` and `tx_arm_dma`: an endless transfer into a 16 KB ring. -/
def armRingDma (channel : Int) (ring fifo : DmaAddr) : SdkCall :=
  .dma channel (.configure
    { size := 32, writeIncrement := true, ringBits := some 14, dreq := fifo, chainTo := none
      writeTo := ring, readFrom := fifo, count := none, trigger := true })

/-- `bd_start_sm` and `tx_start_sm`. -/
def startCaptureSm (block : PioBlock) (sm offset : Nat) : List SdkCall :=
  [ .sm block sm (.init offset)
  , .sm block sm (.setConsecutivePindirs 0 32 false)
  , .sm block sm .clearFifos
  , .sm block sm (.setEnabled true) ]

namespace BootCapture

structure Hardware where
  memOff : Nat
  ioOff : Nat
  memDma : Int
  ioDma : Int
  deriving DecidableEq

namespace Hardware

def initial : Hardware := ⟨0, 0, -1, -1⟩

def armMem (h : Hardware) : SdkCall := armRingDma h.memDma .bdMemRing (.rxFifo .pio0 1)
def armIo (h : Hardware) : SdkCall := armRingDma h.ioDma .bdIoRing (.rxFifo .pio0 2)

/-- `boot_capture_init` -/
def init (sdk : Sdk) : Hardware × Sdk × List Call :=
  let h : Hardware :=
    { memOff := sdk.offset .bdMemCapture
      ioOff := sdk.offset .bdIoCapture
      memDma := sdk.unclaimed
      ioDma := sdk.claim.unclaimed }
  (h, sdk.claim.claim, FwModule.bootCapture.calls (
    [ .addProgram .pio0 .bdMemCapture
    , .addProgram .pio0 .bdIoCapture
    , .dma h.memDma .claim
    , .dma h.ioDma .claim
    , h.armMem
    , h.armIo ] ++
    startCaptureSm .pio0 1 h.memOff ++ startCaptureSm .pio0 2 h.ioOff))

/-- `boot_capture_reset`: a no-op before `boot_capture_init`. -/
def reset (h : Hardware) : List Call :=
  if h.memDma < 0 then []
  else FwModule.bootCapture.calls
    [ .sm .pio0 1 (.setEnabled false)
    , .sm .pio0 2 (.setEnabled false)
    , .dma h.memDma .abort
    , .dma h.ioDma .abort
    , .sm .pio0 1 .clearFifos
    , .sm .pio0 2 .clearFifos
    , .sm .pio0 1 .restart
    , .sm .pio0 2 .restart
    , .sm .pio0 1 (.execJmp h.memOff)
    , .sm .pio0 2 (.execJmp h.ioOff)
    , h.armMem
    , h.armIo
    , .sm .pio0 1 (.setEnabled true)
    , .sm .pio0 2 (.setEnabled true) ]

/-- `boot_capture_stop` -/
def stop (h : Hardware) : List Call := FwModule.bootCapture.calls
  [ .sm .pio0 1 (.setEnabled false)
  , .sm .pio0 2 (.setEnabled false)
  , .dma h.memDma .abort
  , .dma h.ioDma .abort ]

/-- The registers that `boot_capture_drain` reads. -/
def drain (h : Hardware) : List Call :=
  FwModule.bootCapture.calls [.dma h.memDma .readRegs, .dma h.ioDma .readRegs]

end Hardware

end BootCapture

namespace TxnCapture

structure Hardware where
  off : Nat
  dma : Int
  deriving DecidableEq

namespace Hardware

def initial : Hardware := ⟨0, -1⟩

def arm (h : Hardware) : SdkCall := armRingDma h.dma .txRing (.rxFifo .pio1 0)

/-- `txn_capture_init` -/
def init (sdk : Sdk) : Hardware × Sdk × List Call :=
  let h : Hardware := ⟨sdk.offset .txnReadCapture, sdk.unclaimed⟩
  (h, sdk.claim, FwModule.txnCapture.calls (
    [ .addProgram .pio1 .txnReadCapture
    , .dma h.dma .claim
    , h.arm ] ++
    startCaptureSm .pio1 0 h.off))

/-- `txn_capture_reset` -/
def reset (h : Hardware) : List Call :=
  if h.dma < 0 then []
  else FwModule.txnCapture.calls
    [ .sm .pio1 0 (.setEnabled false)
    , .dma h.dma .abort
    , .sm .pio1 0 .clearFifos
    , .sm .pio1 0 .restart
    , .sm .pio1 0 (.execJmp h.off)
    , h.arm
    , .sm .pio1 0 (.setEnabled true) ]

/-- `txn_capture_stop` -/
def stop (h : Hardware) : List Call :=
  if h.dma < 0 then []
  else FwModule.txnCapture.calls
    [ .sm .pio1 0 (.setEnabled false)
    , .dma h.dma .abort ]

/-- The register that `txn_capture_drain` reads. -/
def drain (h : Hardware) : List Call :=
  if h.dma < 0 then [] else FwModule.txnCapture.calls [.dma h.dma .readRegs]

end Hardware

end TxnCapture

end MsxPulse.Firmware
