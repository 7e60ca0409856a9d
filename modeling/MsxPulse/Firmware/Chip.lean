import MsxPulse.Firmware.CmdDispatch
import MsxPulse.Firmware.Ui
import MsxPulse.Library.Machine

/-!
# The firmware as main.c runs it

The hardware handles of all modules, the diagnostic round and the menu, driven by
everything the main loop and core 1 can do. Every step emits its SDK calls in
program order. `cart_serve_init` and `msx_runtime_serve_detect_init` are never
called, so the statics of cart_serve.c stay zero and `s_detect` stays false.
-/

namespace MsxPulse.Firmware

open Library

structure Chip where
  sdk : Sdk
  alog : Alog
  capture : BootCapture.Hardware
  txn : TxnCapture.Hardware
  cart : CartServe
  detect : Bool
  diag : BootDiag
  ui : Ui
  halted : Bool

/-- What the main loop and core 1 do next. A tick reads the probe snapshot, the
boot detector and the analyzer as they are then. -/
inductive ChipEvent where
  | tick (nowMs : U32) (snap : BusProbeSnapshot) (bs : BootDetect) (bi : BusIntegrity)
  | button (e : BtnEvent)
  | combo
  | command (cmd : ParsedCmd)
  | render
  | core1

namespace Chip

/-- The statics when `main` starts. -/
def initial (offset : PioProgram → Nat) (lutHigh : U32) : Chip where
  sdk := ⟨offset, []⟩
  alog := .initial
  capture := .initial
  txn := .initial
  cart := .initial lutHigh
  detect := false
  diag := .initial
  ui := .initial
  halted := false

/-- The SDK calls of `main` before its loop, as far as they touch pads. -/
def bringUp : List Call :=
  FwModule.main.calls [.gpio 38 .init, .gpio 38 (.setDir true), .gpio 38 (.put true)] ++
  FwModule.oled.calls
    [ .gpio 36 (.setFunction .i2c), .gpio 37 (.setFunction .i2c)
    , .gpio 36 .pullUp, .gpio 37 .pullUp ] ++
  FwModule.adcRails.calls
    ([40, 41, 42].flatMap fun pin => [.gpio pin (.setFunction .null), .gpio pin .disablePulls]) ++
  MsxRuntime.passiveInit ++
  FwModule.busProbe.calls [.gpio 31 (.setFunction .pwm), .pwmInit 7] ++
  FwModule.buttons.calls
    ([39, 43, 44].flatMap fun pin => [.gpio pin .init, .gpio pin (.setDir false), .gpio pin .pullUp])

/-- One call of `boot_diag_tick` to another module. -/
def diagCall (s : Chip) : DiagCall → Chip × List Call
  | .alogInit =>
    let r := Alog.init s.sdk
    ({ s with alog := r.1, sdk := r.2.1 }, r.2.2)
  | .bootCaptureInit =>
    let r := BootCapture.Hardware.init s.sdk
    ({ s with capture := r.1, sdk := r.2.1 }, r.2.2)
  | .txnCaptureInit =>
    let r := TxnCapture.Hardware.init s.sdk
    ({ s with txn := r.1, sdk := r.2.1 }, r.2.2)
  | .bootDetectReset => (s, [])
  | .bootCaptureReset => (s, s.capture.reset)
  | .txnCaptureReset => (s, s.txn.reset)
  | .pulseResetPassive => (s, MsxRuntime.pulseResetPassive)
  | .bootCaptureStop => (s, s.capture.stop)
  | .txnCaptureStop => (s, s.txn.stop)

def diagCalls (s : Chip) : List DiagCall → Chip × List Call
  | [] => (s, [])
  | c :: rest =>
    let r := s.diagCall c
    let r' := r.1.diagCalls rest
    (r'.1, r.2 ++ r'.2)

/-- `boot_diag_tick` with the calls it makes. -/
def tick (s : Chip) (nowMs : U32) (snap : BusProbeSnapshot) (bs : BootDetect)
    (bi : BusIntegrity) : Chip × List Call :=
  let next := { s.diag with bi := bi }.tick snap bs nowMs
  { s with diag := next.1 }.diagCalls next.2

/-- `ui_handle_btn` -/
def button (s : Chip) (e : BtnEvent) : Chip :=
  let pressed := s.ui.handleBtn e
  { s with ui := pressed.1, diag := if pressed.2 then s.diag.start else s.diag }

/-- `cmd_dispatch`; UPDATE never returns. -/
def command (s : Chip) (cmd : ParsedCmd) : Chip × List Call :=
  ({ s with
      diag := if cmd.type = .boot then s.diag.start else s.diag
      halted := decide (cmd.type = .update) },
    CmdDispatch.cmdDispatch s.alog s.capture s.cart cmd)

/-- One turn of `core1_dashboard_loop`. The sampler reads GPIO inputs and the clock
counter only. -/
def core1 (s : Chip) : List Call :=
  if s.diag.captureActive then s.capture.drain ++ s.alog.captured ++ s.txn.drain
  else FwModule.busProbe.calls [.gpio MsxRuntime.gpResetDrv .get]

def step (s : Chip) : ChipEvent → Chip × List Call
  | .tick nowMs snap bs bi => s.tick nowMs snap bs bi
  | .button e => (s.button e, [])
  | .combo => (s, MsxRuntime.pulseReset s.alog s.capture s.cart s.detect)
  | .command cmd => s.command cmd
  | .render => ({ s with ui := s.ui.render s.diag.phase }, [])
  | .core1 => (s, s.core1)

/-- Runs of the main loop and core 1, until the bootloader takes over. -/
def machine : Machine Chip ChipEvent Call where
  step s e := if s.halted then (s, []) else s.step e

end Chip

end MsxPulse.Firmware
