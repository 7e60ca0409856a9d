import MsxPulse.Firmware.Alog.Buffer
import MsxPulse.Firmware.BootCapture
import MsxPulse.Firmware.BootDiag
import MsxPulse.Firmware.TxnCapture
import MsxPulse.Firmware.UsbSerial

/-!
# The evidence of a diagnostic round

Everything a frozen result can come from: the three capture rings, the cart-read
log, the two accumulators and the orchestrator. Core 0 ticks, core 1 drains, the
DMA channels store captured words, and the user enters commands, in any order. A
drain is a sequence of core 1's steps, so that words arrive while it reads; the
log loop is one step, since nothing it reads can change before it ends.
-/

namespace MsxPulse.Firmware

open Library

/-- A capture ring with its statics: the cursor and whether its channel is
claimed (`dma >= 0`) and running. -/
structure RingCapture where
  dma : DmaRing
  cursor : RingCursor
  claimed : Bool
  running : Bool

namespace RingCapture

def initial (block : RingBlock) : RingCapture :=
  ⟨⟨block, 0#32, fun _ => 0#32⟩, .reset, false, false⟩

/-- The ring's part of an init. -/
def init (r : RingCapture) : RingCapture :=
  { r with dma := r.dma.arm, cursor := .reset, claimed := true, running := true }

/-- The ring's part of a reset, which follows an init. -/
def reset (r : RingCapture) : RingCapture :=
  { r with dma := r.dma.arm, cursor := .reset, running := true }

def stop (r : RingCapture) : RingCapture := { r with running := false }

def store (r : RingCapture) (word : U32) : RingCapture := { r with dma := r.dma.write word }

/-- The drain's start, with the loop's `total` and first `rd`. -/
def beginDrain (r : RingCapture) : RingCapture × U32 × U32 :=
  let start := r.cursor.beginDrain r.dma
  ({ r with cursor := start.1 }, start.2.1, start.2.2)

/-- `*rd_cursor = rd` -/
def endDrain (r : RingCapture) (rd : U32) : RingCapture :=
  { r with cursor := { r.cursor with rd := rd } }

end RingCapture

/-- Where core 1 is: at the head of its loop, or in one of the loops of
`boot_diag_core1_drain_step`. -/
inductive Core1 where
  | head
  | mem (total rd : U32)
  | io (total rd : U32)
  | alog
  | txn (total rd : U32)
  deriving DecidableEq

structure Captures where
  diag : BootDiag
  detect : BootDetect
  mem : RingCapture
  io : RingCapture
  txn : RingCapture
  alog : AlogBuffer
  /-- `bd_alog_rd` -/
  alogRd : U16
  watchdog : BootCapture.Watchdog
  core1 : Core1

/-- Where the linker put the buffers. -/
structure CaptureMemory where
  mem : RingBlock
  io : RingBlock
  txn : RingBlock
  alog : AlogRaw

inductive CaptureEvent where
  /-- `boot_diag_start` from the menu. -/
  | start
  | tick (nowMs : U32) (snap : BusProbeSnapshot)
  | core1 (nowUs : U64)
  | memWord (word : U32)
  | ioWord (word : U32)
  | txnWord (word : U32)
  | cartRead (word : U32)
  | command (cmd : ParsedCmd)
  /-- The button combination: `msx_reset_pulse`. -/
  | combo

namespace Captures

/-- Zeroed statics. -/
def initial (memory : CaptureMemory) : Captures where
  diag := .initial
  detect :=
    { phaseFlags := 0#16, earlyPpiWrites := false, basicWorkareaInit := false, headerRead := false
      header4000 := 0#8, header4001 := 0#8, lastConfirmed := 0, firstMissing := 0 }
  mem := .initial memory.mem
  io := .initial memory.io
  txn := .initial memory.txn
  alog := .initial memory.alog
  alogRd := 0#16
  watchdog := .reset
  core1 := .head

/-- `boot_capture_init` -/
def bootCaptureInit (s : Captures) : Captures :=
  { s with mem := s.mem.init, io := s.io.init, watchdog := .reset, alogRd := 0#16 }

/-- `boot_capture_reset`: no-op before the init. It takes the log's cursor back to
the start and leaves the log as it is. -/
def bootCaptureReset (s : Captures) : Captures :=
  if s.mem.claimed then
    { s with mem := s.mem.reset, io := s.io.reset, watchdog := .reset, alogRd := 0#16 }
  else s

/-- `txn_capture_reset` -/
def txnCaptureReset (s : Captures) : Captures :=
  if s.txn.claimed then { s with txn := s.txn.reset } else s

/-- `txn_capture_stop` -/
def txnCaptureStop (s : Captures) : Captures :=
  if s.txn.claimed then { s with txn := s.txn.stop } else s

/-- What a call of `boot_diag_tick` does to the evidence. -/
def perform (s : Captures) : DiagCall → Captures
  | .alogInit => { s with alog := s.alog.init }
  | .bootCaptureInit => s.bootCaptureInit
  | .txnCaptureInit => { s with txn := s.txn.init }
  | .bootDetectReset => { s with detect := .reset }
  | .bootCaptureReset => s.bootCaptureReset
  | .txnCaptureReset => s.txnCaptureReset
  | .pulseResetPassive => s
  | .bootCaptureStop => { s with mem := s.mem.stop, io := s.io.stop }
  | .txnCaptureStop => s.txnCaptureStop

def tick (s : Captures) (nowMs : U32) (snap : BusProbeSnapshot) : Captures :=
  let next := s.diag.tick snap s.detect nowMs
  next.2.foldl perform { s with diag := next.1 }

/-- Core 1 begins `boot_capture_drain`, if the captures are on. -/
def beginMem (s : Captures) (nowUs : U64) : Captures :=
  if s.diag.captureActive then
    let start := s.mem.beginDrain
    { s with
      watchdog := s.watchdog.observe nowUs
      mem := start.1
      core1 := .mem start.2.1 start.2.2 }
  else s

def turnMem (s : Captures) (total rd : U32) : Captures :=
  if rd = total then
    let start := s.io.beginDrain
    { s with mem := s.mem.endDrain rd, io := start.1, core1 := .io start.2.1 start.2.2 }
  else
    { s with
      detect := BootCapture.feedDecoded BootCapture.decodeMem s.detect (s.mem.dma.read rd)
      core1 := .mem total (rd + 1#32) }

def turnIo (s : Captures) (total rd : U32) : Captures :=
  if rd = total then { s with io := s.io.endDrain rd, core1 := .alog }
  else
    { s with
      detect := BootCapture.feedDecoded BootCapture.decodeIo s.detect (s.io.dma.read rd)
      core1 := .io total (rd + 1#32) }

/-- The log loop, then the start of `txn_capture_drain`. -/
def turnAlog (s : Captures) : Captures :=
  let fed := BootCapture.drainAlog s.alog s.alogRd s.detect
  let s := { s with detect := fed.1, alogRd := fed.2 }
  if s.txn.claimed then
    let start := s.txn.beginDrain
    { s with txn := start.1, core1 := .txn start.2.1 start.2.2 }
  else { s with core1 := .head }

def turnTxn (s : Captures) (total rd : U32) : Captures :=
  if rd = total then { s with txn := s.txn.endDrain rd, core1 := .head }
  else
    { s with
      diag := { s.diag with bi := TxnCapture.feedRaw s.diag.bi (s.txn.dma.read rd) }
      core1 := .txn total (rd + 1#32) }

/-- Core 1 takes its next step; outside a round that is a probe sample. -/
def core1Step (s : Captures) (nowUs : U64) : Captures :=
  match s.core1 with
  | .head => s.beginMem nowUs
  | .mem total rd => s.turnMem total rd
  | .io total rd => s.turnIo total rd
  | .alog => s.turnAlog
  | .txn total rd => s.turnTxn total rd

/-- `cmd_reset` -/
def cmdReset (s : Captures) : Captures :=
  let s := { s with alog := s.alog.reset, detect := .reset }.bootCaptureReset
  { s with alog := s.alog.resetPipeline }

/-- `cmd_dispatch`, as far as it touches the evidence. -/
def cmdDispatch (s : Captures) (cmd : ParsedCmd) : Captures :=
  match cmd.type with
  | .emuOff => { s with alog := s.alog.disableDrive }
  | .reset => s.cmdReset
  | .alogReset => { s with alog := s.alog.reset }
  | .boot => { s with diag := s.diag.start }
  | _ => s

/-- `msx_runtime_pulse_reset` in the passive configuration, where `s_detect` is
false. -/
def pulseReset (s : Captures) : Captures := { s with alog := s.alog.reset.resetPipeline }

def machine : Machine Captures CaptureEvent Empty where
  step
    | s, .start => ({ s with diag := s.diag.start }, [])
    | s, .tick nowMs snap => (s.tick nowMs snap, [])
    | s, .core1 nowUs => (s.core1Step nowUs, [])
    | s, .memWord word => ({ s with mem := s.mem.store word }, [])
    | s, .ioWord word => ({ s with io := s.io.store word }, [])
    | s, .txnWord word => ({ s with txn := s.txn.store word }, [])
    | s, .cartRead word => ({ s with alog := s.alog.store word }, [])
    | s, .command cmd => (s.cmdDispatch cmd, [])
    | s, .combo => (s.pulseReset, [])

/-- What the hardware and the clock allow. A channel stores a word while it runs
and its count is not used up. When the settle time is over, core 1 is back at the
head of its loop: the 60 ms are there for it to publish a fresh probe sample. -/
def Possible (s : Captures) : CaptureEvent → Prop
  | .memWord _ => s.mem.running = true
  | .ioWord _ => s.io.running = true
  | .txnWord _ => s.txn.running = true
  | .cartRead _ => s.alog.HasRoom
  | .tick nowMs _ =>
    s.diag.phase = .settle → BootDiag.reached nowMs s.diag.deadlineMs = true → s.core1 = .head
  | _ => True

instance (s : Captures) : ∀ e : CaptureEvent, Decidable (s.Possible e)
  | .memWord _ => inferInstanceAs (Decidable (_ = true))
  | .ioWord _ => inferInstanceAs (Decidable (_ = true))
  | .txnWord _ => inferInstanceAs (Decidable (_ = true))
  | .cartRead _ => inferInstanceAs (Decidable s.alog.HasRoom)
  | .tick _ _ => inferInstanceAs (Decidable (_ → _ → _))
  | .start => .isTrue trivial
  | .core1 _ => .isTrue trivial
  | .command _ => .isTrue trivial
  | .combo => .isTrue trivial

/-- Some history of the firmware ends in this state. -/
def Reached (s : Captures) : Prop :=
  ∃ (memory : CaptureMemory) (past : List CaptureEvent),
    machine.Along Possible (initial memory) past ∧ s = machine.final (initial memory) past

/-- The next tick is the first re-arm of a round. -/
def AtRearm (s : Captures) : Prop := s.diag.phase = .passBegin ∧ s.diag.pass = 0#8

instance (s : Captures) : Decidable s.AtRearm := inferInstanceAs (Decidable (_ ∧ _))

end Captures

end MsxPulse.Firmware
