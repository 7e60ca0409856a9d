import MsxPulse.Firmware.Types

/-!
# The pico-sdk calls of the firmware

What a C function does to the chip is the list of SDK calls it makes, in program
order, each with the module that makes it. Register accesses that name one state
machine or one DMA channel count as calls on it.
-/

namespace MsxPulse.Firmware

/-- The C files that make SDK calls. -/
inductive FwModule where
  | main
  | oled
  | adcRails
  | buttons
  | busProbe
  | msxRuntime
  | cmdDispatch
  | cartServe
  | alog
  | bootCapture
  | txnCapture
  deriving DecidableEq

inductive PioBlock where
  | pio0
  | pio1
  | pio2
  deriving DecidableEq

/-- The PIO programs that are loaded by name. -/
inductive PioProgram where
  | cartAddrRead
  | cartRead
  | cartAddrLog
  | bdMemCapture
  | bdIoCapture
  | txnReadCapture
  deriving DecidableEq

/-- What a pad's function select can name. -/
inductive GpioFunction where
  | sio
  | pwm
  | i2c
  | null
  | pio (block : PioBlock)
  deriving DecidableEq

inductive GpioOp where
  | init
  | put (value : Bool)
  | setDir (out : Bool)
  | setFunction (f : GpioFunction)
  | disablePulls
  | pullUp
  | get
  deriving DecidableEq

inductive SmOp where
  | init (offset : Nat)
  | setConfig (offset : Nat)
  | setConsecutivePindirs (base count : Nat) (out : Bool)
  | setPinsWithMask (values mask : U64)
  | clearFifos
  | setEnabled (on : Bool)
  | restart
  | execJmp (offset : Nat)
  | put (word : U32)
  | readRegs
  deriving DecidableEq

/-- Ends of a DMA transfer. -/
inductive DmaAddr where
  | alogRaw
  | bdMemRing
  | bdIoRing
  | txRing
  | romLut
  | rxFifo (block : PioBlock) (sm : Nat)
  | txFifo (block : PioBlock) (sm : Nat)
  | readAddrTrig (channel : Int)
  deriving DecidableEq

/-- The arguments of `dma_channel_configure`; neither end is incremented unless it
says so, `ringBits` wraps the write address, and no `count` is an endless transfer. -/
structure DmaConfig where
  size : Nat
  writeIncrement : Bool
  ringBits : Option Nat
  dreq : DmaAddr
  chainTo : Option Int
  writeTo : DmaAddr
  readFrom : DmaAddr
  count : Option U32
  trigger : Bool
  deriving DecidableEq

inductive DmaOp where
  | claim
  | configure (c : DmaConfig)
  | abort
  | readRegs
  deriving DecidableEq

inductive SdkCall where
  | gpio (pin : Nat) (op : GpioOp)
  | sm (block : PioBlock) (sm : Nat) (op : SmOp)
  | dma (channel : Int) (op : DmaOp)
  | setGpioBase (block : PioBlock) (base : Nat)
  | addProgram (block : PioBlock) (program : PioProgram)
  | clearFdebug (block : PioBlock)
  | dmaBusPriority
  | pwmInit (slice : Nat)
  | sleepUs (us : Nat)
  | resetUsbBoot
  deriving DecidableEq

/-- A call and the module that makes it. -/
structure Call where
  caller : FwModule
  call : SdkCall
  deriving DecidableEq

def FwModule.calls (m : FwModule) (calls : List SdkCall) : List Call := calls.map (⟨m, ·⟩)

/-- What the firmware gets back from the SDK: the offset at which a program is
loaded, and the channels that are claimed. -/
structure Sdk where
  offset : PioProgram → Nat
  claimed : List Int

/-- `dma_claim_unused_channel` returns the lowest unclaimed channel. -/
def Sdk.unclaimed (sdk : Sdk) : Int :=
  ((List.range (sdk.claimed.length + 1)).map Int.ofNat).find? (· ∉ sdk.claimed) |>.getD 0

def Sdk.claim (sdk : Sdk) : Sdk := { sdk with claimed := sdk.unclaimed :: sdk.claimed }

end MsxPulse.Firmware
