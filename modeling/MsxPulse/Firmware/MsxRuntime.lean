import MsxPulse.Firmware.Alog
import MsxPulse.Firmware.BootCapture.Hardware
import MsxPulse.Firmware.CartServe

/-!
# Bring-up and reset pulses (msx_runtime.c)
-/

namespace MsxPulse.Firmware.MsxRuntime

def gpReset : Nat := 32
def gpResetDrv : Nat := 33

/-- `msx_runtime_passive_init` -/
def passiveInit : List Call :=
  FwModule.msxRuntime.calls (
    [ .gpio gpResetDrv .init, .gpio gpResetDrv (.put false), .gpio gpResetDrv (.setDir true)
    , .gpio gpReset .init, .gpio gpReset (.setDir false) ] ++
    (List.range' 0 16).map (.gpio · (.setFunction .sio)) ++
    (List.range' 16 8).map (.gpio · (.setFunction .sio)) ++
    (List.range' 24 7).map (.gpio · (.setFunction .sio)) ++
    (List.range' 0 16).map (.gpio · .disablePulls) ++
    (List.range' 16 8).map (.gpio · .disablePulls) ++
    (List.range' 24 7).map (.gpio · .disablePulls) ++
    [ .gpio gpReset .disablePulls, .gpio gpLvcDir .disablePulls
    , .gpio gpLvcDir .init, .gpio gpLvcDir (.put true), .gpio gpLvcDir (.setDir true) ]) ++
  busBuffersEnable

/-- `msx_runtime_pulse_reset`; `detect` is `s_detect`. -/
def pulseReset (a : Alog) (capture : BootCapture.Hardware) (cart : CartServe) (detect : Bool) :
    List Call :=
  FwModule.msxRuntime.calls [.gpio gpResetDrv (.put true), .sleepUs 1000] ++
    a.reset ++ cart.resetPipeline ++ (if detect then capture.reset else []) ++
    FwModule.msxRuntime.calls [.sleepUs 99000, .gpio gpResetDrv (.put false)]

/-- `msx_runtime_pulse_reset_passive` -/
def pulseResetPassive : List Call := FwModule.msxRuntime.calls
  [.gpio gpResetDrv (.put true), .sleepUs 100000, .gpio gpResetDrv (.put false)]

end MsxPulse.Firmware.MsxRuntime
