import MsxPulse.Library.Machine
import MsxPulse.Firmware.Ui.Handover
import MsxPulse.Firmware.Ui.ResultsRows
import MsxPulse.Firmware.MainLoop.PowerFault
import MsxPulse.Firmware.Oled.Glass
import MsxPulse.Firmware.BusIntegrity.Batch
import MsxPulse.Firmware.BootDetect.Specification
import MsxPulse.Firmware.BootDiag.ShortBuffers
import MsxPulse.Firmware.BusProbe.Sample
import MsxPulse.Firmware.CaptureRing.Drains
import MsxPulse.Firmware.CaptureRing.Guard
import MsxPulse.Firmware.BootCapture.Health
import MsxPulse.Firmware.BootCapture.CartReads
import MsxPulse.Firmware.BootCapture.MemCycles
import MsxPulse.Firmware.Chip.Ownership
import MsxPulse.Firmware.Chip.ServeMode
import MsxPulse.Firmware.Captures.Evidence
import MsxPulse.Firmware.Captures.Isolation
import MsxPulse.Firmware.CartServe.ResetPipeline
import MsxPulse.Firmware.CartServe.Logged
import MsxPulse.Firmware.UsbSerial.LineFraming
import MsxPulse.Firmware.UsbSerial.CmdRing
import MsxPulse.Firmware.UsbSerial.Whitespace
import MsxPulse.Firmware.CmdDispatch.DumpHex
import MsxPulse.Firmware.CmdDispatch.Boot
import MsxPulse.Firmware.Console.Session
import MsxPulse.Firmware.Buttons.Presses
import MsxPulse.Firmware.Buttons.Taps
import MsxPulse.Firmware.Buttons.Episodes
import MsxPulse.Firmware.Buttons.Arming
import MsxPulse.Firmware.AdcRails
import MsxPulse.Library.Reach
import MsxPulse.Library.Z80
import MsxPulse.Library.Z80.Blocks
import MsxPulse.Library.Z80.Loops
import MsxPulse.Library.StuckAt
import MsxPulse.Rom.Listing
import MsxPulse.Rom.MarchTest
import MsxPulse.Rom.RamTest
import MsxPulse.Rom.VramTest
import MsxPulse.Rom.TestCpu
import MsxPulse.Firmware.CapturePrograms
import MsxPulse.Firmware.CaptureLane
import MsxPulse.Firmware.Captures.Wired
