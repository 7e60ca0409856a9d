import MsxPulse.Firmware.BootDetect
import MsxPulse.Firmware.BusIntegrity
import MsxPulse.Firmware.BusProbe
import MsxPulse.Library.Machine

/-!
# The boot-diagnostic round (boot_diag.c)

The orchestrator's statics are one record. What `boot_diag_tick` asks of other
modules is emitted as a list of calls, in program order, so that the same tick
drives the detector, the capture rings and the SDK. What it reads from them (the
probe snapshot, the detector state) is passed in.
-/

namespace MsxPulse.Firmware

inductive BootAnomaly where
  | clkAbsent
  | clkOutOfRange
  | resetStuck
  | noBusCycles
  | waitStuckLow
  deriving DecidableEq

def BootAnomaly.index : BootAnomaly → Nat
  | clkAbsent => 0
  | clkOutOfRange => 1
  | resetStuck => 2
  | noBusCycles => 3
  | waitStuckLow => 4

inductive BootDiagPhase where
  | idle
  | passBegin
  | capturing
  | settle
  | done
  deriving DecidableEq

/-- The frozen aggregate result. -/
structure BootDiagResult where
  anomalyFlags : U16
  stuckDataHi : U8
  stuckDataLo : U8
  stuckAddrMask : U16
  busUndriven : Bool
  cpChecked : U8
  cpFailed : U8
  nReads : U32
  phaseFlags : U16
  lastConfirmed : Int
  firstMissing : Int
  earlyPpiWrites : Bool
  basicWorkareaInit : Bool
  passesRun : U8
  deriving DecidableEq

/-- What a tick asks of the other modules. -/
inductive DiagCall where
  | alogInit
  | bootCaptureInit
  | txnCaptureInit
  | bootDetectReset
  | bootCaptureReset
  | txnCaptureReset
  | pulseResetPassive
  | bootCaptureStop
  | txnCaptureStop
  deriving DecidableEq

/-- The statics of boot_diag.c. -/
structure BootDiag where
  captureActive : Bool
  bi : BusIntegrity
  inited : Bool
  request : Bool
  phase : BootDiagPhase
  pass : U8
  deadlineMs : U32
  anomAccum : U16
  result : BootDiagResult

namespace BootDiag

def maxPasses : U8 := 3#8
def windowMs : U32 := 8000#32
def minReads : U32 := 64#32
def minAddrBits : U32 := 6#32

/-- `1u << anomaly` -/
def flag (a : BootAnomaly) : U16 := 1#16 <<< a.index

def classifyAnomalies (s : BusProbeSnapshot) (events : U32) : U16 :=
  let f := if s.clkHz = 0#32 then flag .clkAbsent
    else
      let f := if s.clkHz < 3000000#32 ∨ s.clkHz > 4000000#32 then flag .clkOutOfRange else 0#16
      if events = 0#32 then f ||| flag .noBusCycles else f
  let f := if s.reset = .inReset then f ||| flag .resetStuck else f
  if s.ctrl .wait = .stuckLo then f ||| flag .waitStuckLow else f

/-- Stop early only on a clean complete boot; anomalies never halt the round. -/
def roundShouldStop (phaseFlags _anomalyFlags : U16) : Bool :=
  phaseFlags &&& 0x1FF#16 == 0x1FF#16

/-- `(int32_t)(now - deadline) >= 0` -/
def reached (now deadline : U32) : Bool := decide (0 ≤ (now - deadline).toInt)

/-- C statics start at zero, the phase at `BOOT_DIAG_IDLE`. -/
def initial : BootDiag where
  captureActive := false
  bi := .reset
  inited := false
  request := false
  phase := .idle
  pass := 0#8
  deadlineMs := 0#32
  anomAccum := 0#16
  result :=
    { anomalyFlags := 0#16, stuckDataHi := 0#8, stuckDataLo := 0#8, stuckAddrMask := 0#16
      busUndriven := false, cpChecked := 0#8, cpFailed := 0#8, nReads := 0#32
      phaseFlags := 0#16, lastConfirmed := 0, firstMissing := 0
      earlyPpiWrites := false, basicWorkareaInit := false, passesRun := 0#8 }

def start (d : BootDiag) : BootDiag :=
  if d.phase ≠ .idle ∧ d.phase ≠ .done then d else { d with request := true }

def freezeResult (d : BootDiag) (bs : BootDetect) : BootDiagResult where
  anomalyFlags := d.anomAccum
  stuckDataHi := d.bi.stuckDataHi minReads
  stuckDataLo := d.bi.stuckDataLo minReads
  stuckAddrMask := d.bi.stuckAddr minReads minAddrBits
  busUndriven := d.bi.busUndriven minReads
  cpChecked := d.bi.cpChecked
  cpFailed := d.bi.cpFailed
  nReads := d.bi.nReads
  phaseFlags := bs.phaseFlags
  lastConfirmed := bs.lastConfirmed
  firstMissing := bs.firstMissing
  earlyPpiWrites := bs.earlyPpiWrites
  basicWorkareaInit := bs.basicWorkareaInit
  passesRun := d.pass

/-- IDLE or DONE: take a pending request and begin a round. -/
def tickIdle (d : BootDiag) : BootDiag × List DiagCall :=
  if d.request then
    ({ d with
        request := false
        inited := true
        bi := .reset
        pass := 0#8
        anomAccum := 0#16
        phase := .passBegin },
      (if d.inited then [] else [.alogInit, .bootCaptureInit, .txnCaptureInit]) ++
        [.bootDetectReset])
  else (d, [])

/-- PASS_BEGIN: re-arm the captures and pulse /RESET. -/
def tickPassBegin (d : BootDiag) (nowMs : U32) : BootDiag × List DiagCall :=
  ({ d with captureActive := true, deadlineMs := nowMs + windowMs, phase := .capturing },
    [.bootCaptureReset, .txnCaptureReset, .pulseResetPassive])

/-- CAPTURING: stop the captures when the window is over. -/
def tickCapturing (d : BootDiag) (nowMs : U32) : BootDiag × List DiagCall :=
  if reached nowMs d.deadlineMs then
    ({ d with captureActive := false, deadlineMs := nowMs + 60#32, phase := .settle },
      [.bootCaptureStop, .txnCaptureStop])
  else (d, [])

/-- SETTLE: classify the pass, then freeze the result or begin another pass. -/
def tickSettle (d : BootDiag) (snap : BusProbeSnapshot) (bs : BootDetect) (nowMs : U32) :
    BootDiag × List DiagCall :=
  if reached nowMs d.deadlineMs then
    let d := { d with
      anomAccum := d.anomAccum ||| classifyAnomalies snap d.bi.nReads
      pass := d.pass + 1#8 }
    if roundShouldStop bs.phaseFlags d.anomAccum ∨ d.pass ≥ maxPasses then
      ({ d with result := d.freezeResult bs, phase := .done }, [])
    else ({ d with phase := .passBegin }, [])
  else (d, [])

def tick (d : BootDiag) (snap : BusProbeSnapshot) (bs : BootDetect) (nowMs : U32) :
    BootDiag × List DiagCall :=
  match d.phase with
  | .idle => d.tickIdle
  | .done => d.tickIdle
  | .passBegin => d.tickPassBegin nowMs
  | .capturing => d.tickCapturing nowMs
  | .settle => d.tickSettle snap bs nowMs

/-- `boot_diag_current_pass` -/
def currentPass (d : BootDiag) : U8 :=
  if d.phase = .idle ∨ d.phase = .done then d.result.passesRun else d.pass + 1#8

end BootDiag

end MsxPulse.Firmware
