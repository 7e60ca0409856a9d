import MsxPulse.Firmware.Types

/-!
# Commands received over USB (usb_serial.h)
-/

namespace MsxPulse.Firmware

inductive CmdType where
  | help
  | status
  | reset
  | dumpHex
  | rails
  | update
  | emuOff
  | pins
  | alogStatus
  | alogReset
  | alogSlot
  | alogDebug
  | boot
  | dash
  | unknown
  deriving DecidableEq

structure ParsedCmd where
  type : CmdType
  argAddr : U16
  deriving DecidableEq

end MsxPulse.Firmware
