import MsxPulse.Firmware.BusIntegrity
import MsxPulse.Firmware.CaptureRing

/-!
# Capturing reads for the bus analyzer (txn_capture.c)
-/

namespace MsxPulse.Firmware.TxnCapture

/-- One turn of the loop body of `txn_capture_drain`. -/
def feedRaw (bi : BusIntegrity) (raw : U32) : BusIntegrity :=
  bi.feed ((raw &&& 0xFFFF#32).setWidth 16) (((raw >>> 16) &&& 0xFF#32).setWidth 8)

/-- `tx_dma_total` -/
def txDmaTotal : RingCursor → DmaRing → RingCursor := RingCursor.dmaTotal

/-- `txn_capture_drain`, feeding the bus analyzer. -/
def txnCaptureDrain : Library.Machine (RingRun BusIntegrity) RingEvent Empty :=
  RingRun.machine feedRaw

end MsxPulse.Firmware.TxnCapture
