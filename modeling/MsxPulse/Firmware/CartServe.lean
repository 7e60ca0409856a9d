import MsxPulse.Firmware.Sdk

/-!
# Serving the cart ROM (cart_serve.c)

What the module does to the two PIOs and its two DMA channels. Its statics are zero
until `cart_serve_init` runs, and nothing records whether it has.
-/

namespace MsxPulse.Firmware

structure CartServe where
  addrProgOffset : Nat
  readProgOffset : Nat
  dmaAddrFwdCh : Int
  dmaDataFetchCh : Int
  /-- `(uintptr_t)rom_lut >> 16` -/
  lutHigh : U32
  deriving DecidableEq

def gpLvcOen : Nat := 35
def gpLvcDir : Nat := 34
def gpWait : Nat := 30

/-- `bus_buffers_enable` -/
def busBuffersEnable : List Call := FwModule.cartServe.calls
  [.gpio gpLvcOen .init, .gpio gpLvcOen (.setDir true), .gpio gpLvcOen (.put false)]

namespace CartServe

/-- The zeroed statics; the linker places `rom_lut`. -/
def initial (lutHigh : U32) : CartServe := ⟨0, 0, 0, 0, lutHigh⟩

/-- `((uint64_t)1u << GP_WAIT) | ((uint64_t)1u << GP_LVC_DIR)` -/
def idleHighMask : U64 := 1#64 <<< gpWait ||| 1#64 <<< gpLvcDir

/-- `dma_chain_arm` -/
def dmaChainArm (c : CartServe) : List SdkCall :=
  [ .dma c.dmaDataFetchCh (.configure
      { size := 8, writeIncrement := false, ringBits := none, dreq := .txFifo .pio2 0
        chainTo := some c.dmaDataFetchCh, writeTo := .txFifo .pio2 0, readFrom := .romLut
        count := some 1#32, trigger := false })
  , .dma c.dmaAddrFwdCh (.configure
      { size := 32, writeIncrement := false, ringBits := none, dreq := .rxFifo .pio1 0
        chainTo := some c.dmaAddrFwdCh, writeTo := .readAddrTrig c.dmaDataFetchCh
        readFrom := .rxFifo .pio1 0, count := some 0xFFFFFFFF#32, trigger := true })
  , .dmaBusPriority ]

/-- The calls of `cart_serve_init`. -/
def initCalls (c : CartServe) : List SdkCall :=
  [ .setGpioBase .pio1 0
  , .setGpioBase .pio2 16
  , .addProgram .pio1 .cartAddrRead
  , .addProgram .pio2 .cartRead
  , .sm .pio1 0 (.init c.addrProgOffset)
  , .sm .pio1 0 (.setConsecutivePindirs 0 16 false)
  , .sm .pio1 0 .clearFifos
  , .sm .pio1 0 (.put c.lutHigh) ] ++
  (List.range' 16 8).map (.gpio · (.setFunction (.pio .pio2))) ++
  [ .gpio gpWait (.setFunction (.pio .pio2))
  , .gpio gpLvcDir (.setFunction (.pio .pio2))
  , .sm .pio2 0 (.setConfig c.readProgOffset)
  , .sm .pio2 0 .clearFifos
  , .sm .pio2 0 .restart
  , .sm .pio2 0 (.execJmp c.readProgOffset)
  , .sm .pio2 0 (.setPinsWithMask idleHighMask idleHighMask)
  , .sm .pio2 0 (.setConsecutivePindirs 16 8 false)
  , .sm .pio2 0 (.setConsecutivePindirs gpWait 1 true)
  , .sm .pio2 0 (.setConsecutivePindirs gpLvcDir 1 true)
  , .dma c.dmaAddrFwdCh .claim
  , .dma c.dmaDataFetchCh .claim ] ++ c.dmaChainArm ++
  [ .gpio gpLvcOen .init, .gpio gpLvcOen (.setDir true), .gpio gpLvcOen (.put true) ]

/-- `cart_serve_init`, with the assertion of `dma_chain_configure`. -/
def init (lutHigh : U32) (sdk : Sdk) : Option (CartServe × Sdk × List Call) :=
  let c : CartServe :=
    { addrProgOffset := sdk.offset .cartAddrRead
      readProgOffset := sdk.offset .cartRead
      dmaAddrFwdCh := sdk.unclaimed
      dmaDataFetchCh := sdk.claim.unclaimed
      lutHigh }
  if c.dmaAddrFwdCh < c.dmaDataFetchCh then
    some (c, sdk.claim.claim, FwModule.cartServe.calls c.initCalls)
  else none

/-- `cart_serve_arm` -/
def arm : List Call := FwModule.cartServe.calls
  [.sm .pio2 0 (.setEnabled true), .sm .pio1 0 (.setEnabled true)]

/-- `cart_serve_disable_drive` -/
def disableDrive (c : CartServe) : List Call := FwModule.cartServe.calls (
  [ .sm .pio1 0 (.setEnabled false)
  , .sm .pio2 0 (.setEnabled false)
  , .dma c.dmaAddrFwdCh .abort
  , .dma c.dmaDataFetchCh .abort
  , .gpio gpLvcDir (.setFunction .sio)
  , .gpio gpLvcDir (.setDir true)
  , .gpio gpLvcDir (.put true) ] ++
  (List.range' 16 8).flatMap (fun i => [.gpio i (.setFunction .sio), .gpio i (.setDir false)]) ++
  [ .gpio gpWait (.setFunction .sio)
  , .gpio gpWait (.setDir false) ])

/-- `cart_serve_reset_pipeline` -/
def resetPipeline (c : CartServe) : List Call := FwModule.cartServe.calls (
  [ .sm .pio1 0 (.setEnabled false)
  , .sm .pio2 0 (.setEnabled false)
  , .dma c.dmaAddrFwdCh .abort
  , .dma c.dmaDataFetchCh .abort
  , .sm .pio1 0 .clearFifos
  , .sm .pio2 0 .clearFifos
  , .sm .pio1 0 .restart
  , .sm .pio2 0 .restart
  , .sm .pio1 0 (.execJmp c.addrProgOffset)
  , .sm .pio2 0 (.execJmp c.readProgOffset)
  , .sm .pio1 0 (.put c.lutHigh) ] ++ c.dmaChainArm ++
  [ .sm .pio2 0 (.setPinsWithMask idleHighMask idleHighMask)
  , .sm .pio2 0 (.setConsecutivePindirs 16 8 false)
  , .sm .pio2 0 (.setEnabled true)
  , .sm .pio1 0 (.setEnabled true) ])

end CartServe

end MsxPulse.Firmware
