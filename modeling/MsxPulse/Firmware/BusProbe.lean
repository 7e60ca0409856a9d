import MsxPulse.Firmware.Types

/-!
# The bus probe's published snapshot (bus_probe.h)
-/

namespace MsxPulse.Firmware

inductive LineState where
  | active
  | stuckHi
  | stuckLo
  deriving DecidableEq

inductive ResetStatus where
  | running
  | inReset
  | pulsing
  | drivenCart
  deriving DecidableEq

/-- Indices into the snapshot's control lines, GP24..30 in this order. -/
inductive CtrlLine where
  | rd
  | wr
  | mreq
  | iorq
  | m1
  | sltsl
  | wait
  deriving DecidableEq

structure BusProbeSnapshot where
  addr : Fin 16 → LineState
  data : Fin 8 → LineState
  ctrl : CtrlLine → LineState
  clkHz : U32
  reset : ResetStatus
  timestampMs : U32

namespace BusProbe

/-- The published snapshot before core 1's first sample: C statics are zero. -/
def unpublished : BusProbeSnapshot where
  addr := fun _ => .active
  data := fun _ => .active
  ctrl := fun _ => .active
  clkHz := 0#32
  reset := .running
  timestampMs := 0#32

def classifyBit (seenHi seenLo : Bool) : LineState :=
  if seenHi && seenLo then .active
  else if seenHi then .stuckHi
  else .stuckLo

def resetStatus (seenHi seenLo cartDriving : Bool) : ResetStatus :=
  if cartDriving then .drivenCart
  else if seenHi && seenLo then .pulsing
  else if seenHi then .running
  else .inReset

/-- `(uint32_t)(((uint64_t)edges * 1000000u) / gate_us)` -/
def edgesToHz (edges gateUs : U32) : U32 :=
  if gateUs = 0#32 then 0#32
  else (edges.setWidth 64 * 1000000#64 / gateUs.setWidth 64).setWidth 32

/-- The GPIO of a control line. -/
def ctrlBit : CtrlLine → Nat
  | .rd => 24
  | .wr => 25
  | .mreq => 26
  | .iorq => 27
  | .m1 => 28
  | .sltsl => 29
  | .wait => 30

/-- `bus_probe_classify` fills the three line arrays and leaves the rest. -/
def classify (seenHi seenLo : U32) (out : BusProbeSnapshot) : BusProbeSnapshot :=
  { out with
    addr := fun i => classifyBit (bitSet seenHi i) (bitSet seenLo i)
    data := fun i => classifyBit (bitSet seenHi (16 + i)) (bitSet seenLo (16 + i))
    ctrl := fun line => classifyBit (bitSet seenHi (ctrlBit line)) (bitSet seenLo (ctrlBit line)) }

end BusProbe

end MsxPulse.Firmware
