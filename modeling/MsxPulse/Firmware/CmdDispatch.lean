import MsxPulse.Firmware.MsxRuntime
import MsxPulse.Firmware.UsbSerial

/-!
# What the USB commands do to the chip (cmd_dispatch.c)

The SDK calls of each command. BOOT makes none: it only asks for a round. The
commands that read GPIO inputs, print or sample nothing but memory make none
either.
-/

namespace MsxPulse.Firmware.CmdDispatch

def gpResetIn : Nat := 32
def gpResetDrv : Nat := 33

/-- `cmd_reset` -/
def cmdReset (a : Alog) (capture : BootCapture.Hardware) (cart : CartServe) : List Call :=
  a.reset ++ capture.reset ++ cart.resetPipeline ++
    a.captured ++
    FwModule.cmdDispatch.calls
      [.gpio gpResetIn .get, .gpio gpResetDrv (.put true), .sleepUs 50, .gpio gpResetIn .get] ++
    a.captured ++
    FwModule.cmdDispatch.calls [.sleepUs 50000, .gpio gpResetIn .get] ++
    a.captured ++
    FwModule.cmdDispatch.calls
      [.sleepUs 50000, .gpio gpResetDrv (.put false), .sleepUs 50, .gpio gpResetIn .get] ++
    a.captured

/-- `cmd_dispatch` -/
def cmdDispatch (a : Alog) (capture : BootCapture.Hardware) (cart : CartServe)
    (cmd : ParsedCmd) : List Call :=
  match cmd.type with
  | .emuOff => cart.disableDrive
  | .reset => cmdReset a capture cart
  | .alogStatus => a.captured
  | .alogReset => a.reset
  | .alogDebug => a.printDebug
  | .alogSlot => a.printSlot cmd.argAddr
  | .update => FwModule.cmdDispatch.calls [.resetUsbBoot]
  | .pins | .help | .status | .rails | .dumpHex | .boot | .dash | .unknown => []

end MsxPulse.Firmware.CmdDispatch
