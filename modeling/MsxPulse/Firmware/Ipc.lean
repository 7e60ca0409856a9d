import MsxPulse.Library.CString
import MsxPulse.Library.GapRing
import MsxPulse.Firmware.Types

/-!
# Rings between the cores and USB (ipc.h)
-/

namespace MsxPulse.Firmware

open Library

def usbOutRingLines : U32 := 32
def usbOutLineLen : Nat := 80

/-- `usb_out_ring_t` -/
abbrev UsbOutRing := GapRing 32 (CharArray usbOutLineLen)

def cmdRingLines : U32 := 8
def cmdLineLen : Nat := 64

/-- `cmd_ring_t` -/
abbrev CmdRing := GapRing 32 (CharArray cmdLineLen)

end MsxPulse.Firmware
