import MsxPulse.Firmware.BootDiag.Round
import MsxPulse.Firmware.Chip
import MsxPulse.Firmware.Pads

/-!
# The cart only listens

Every call that the main loop can make after bring-up keeps the data pads and
/WAIT listening and the bus transceivers pointing at the cart, also the calls
written for serving ROM. /RESET is driven only inside the blocking pulses.
-/

namespace MsxPulse.Firmware

open Library

/-- D0..D7 and /WAIT. -/
def listeningPins : List Nat := [16, 17, 18, 19, 20, 21, 22, 23, 30]

namespace Call

/-- The call keeps GP34 an SIO output at HIGH and the listening pins SIO inputs. -/
def keepsListening (c : Call) : Bool :=
  match c.call with
  | .gpio pin op =>
    match op with
    | .init => !decide (pin ∈ listeningPins) && decide (pin ≠ gpLvcDir)
    | .put value => value || decide (pin ≠ gpLvcDir)
    | .setDir out => if pin = gpLvcDir then out else !out || !decide (pin ∈ listeningPins)
    | .setFunction f =>
      decide (f = .sio) || (!decide (pin ∈ listeningPins) && decide (pin ≠ gpLvcDir))
    | .disablePulls | .pullUp | .get => true
  | _ => true

/-- The call changes nothing of GP33. -/
def sparesReset (c : Call) : Bool :=
  match c.call with
  | .gpio pin op => decide (pin ≠ MsxRuntime.gpResetDrv) || decide (op = .get)
  | _ => true

theorem keepsListening_lvcDir {p : Pad} {c : Call} (drives : p.Drives true)
    (keeps : c.keepsListening = true) : (c.onPad gpLvcDir p).Drives true := by
  obtain ⟨caller, call⟩ := c
  subst drives
  cases call with
  | gpio pin op =>
    by_cases here : pin = gpLvcDir
    · subst here
      cases op <;> simp_all [keepsListening, onPad, GpioOp.apply, Pad.Drives]
    · simp [onPad, here, Pad.Drives]
  | _ => rfl

theorem keepsListening_listens {pin : Nat} (listening : pin ∈ listeningPins) {p : Pad} {c : Call}
    (listens : p.Listens) (keeps : c.keepsListening = true) : (c.onPad pin p).Listens := by
  have other : pin ≠ gpLvcDir := by
    rintro rfl
    exact absurd listening (by decide)
  obtain ⟨caller, call⟩ := c
  obtain ⟨func, oe⟩ := listens
  cases call with
  | gpio target op =>
    by_cases here : target = pin
    · subst here
      cases op <;> simp_all [keepsListening, onPad, GpioOp.apply, Pad.Listens]
    · simp [onPad, here, Pad.Listens, func, oe]
  | _ => exact ⟨func, oe⟩

theorem sparesReset_onPad {p : Pad} {c : Call} (spares : c.sparesReset = true) :
    c.onPad MsxRuntime.gpResetDrv p = p := by
  obtain ⟨caller, call⟩ := c
  cases call with
  | gpio pin op =>
    by_cases here : pin = MsxRuntime.gpResetDrv
    · have reads : op = .get := by simpa [sparesReset, here] using spares
      subst reads
      simp [onPad, here, GpioOp.apply]
    · simp [onPad, here]
  | _ => rfl

end Call

/-! ## What each function's calls spare -/

section Functions

variable (a : Alog) (capture : BootCapture.Hardware) (txn : TxnCapture.Hardware) (cart : CartServe)

/-- All calls keep the bus passive and do not touch /RESET. -/
def quiet (calls : List Call) : Bool := calls.all fun c => c.keepsListening && c.sparesReset

theorem quiet_append (first second : List Call) :
    quiet (first ++ second) = (quiet first && quiet second) := by
  simp [quiet]

@[simp] theorem quiet_nil : quiet [] = true := rfl

theorem alog_init_quiet (sdk : Sdk) : quiet (Alog.init sdk).2.2 = true := rfl
theorem alog_reset_quiet : quiet a.reset = true := rfl
theorem alog_captured_quiet : quiet a.captured = true := by
  unfold Alog.captured
  split <;> rfl
theorem alog_printSlot_quiet (slot : U16) : quiet (a.printSlot slot) = true := by
  unfold Alog.printSlot
  split
  · rfl
  · exact alog_captured_quiet a
theorem alog_printDebug_quiet : quiet a.printDebug = true := by
  unfold Alog.printDebug
  rw [quiet_append, quiet_append, alog_captured_quiet]
  rfl
theorem capture_init_quiet (sdk : Sdk) : quiet (BootCapture.Hardware.init sdk).2.2 = true := rfl
theorem capture_reset_quiet : quiet capture.reset = true := by
  unfold BootCapture.Hardware.reset
  split <;> rfl
theorem capture_stop_quiet : quiet capture.stop = true := rfl
theorem capture_drain_quiet : quiet capture.drain = true := rfl
theorem txn_init_quiet (sdk : Sdk) : quiet (TxnCapture.Hardware.init sdk).2.2 = true := rfl
theorem txn_reset_quiet : quiet txn.reset = true := by
  unfold TxnCapture.Hardware.reset
  split <;> rfl
theorem txn_stop_quiet : quiet txn.stop = true := by
  unfold TxnCapture.Hardware.stop
  split <;> rfl
theorem txn_drain_quiet : quiet txn.drain = true := by
  unfold TxnCapture.Hardware.drain
  split <;> rfl
theorem disableDrive_quiet : quiet cart.disableDrive = true := rfl
theorem resetPipeline_quiet : quiet cart.resetPipeline = true := rfl

end Functions

/-! ## Reset pulses -/

/-- GP33 goes HIGH once and LOW again, with quiet calls around. -/
structure Pulses (calls : List Call) : Prop where
  shape : ∃ before during after caller caller', quiet before = true ∧ quiet during = true ∧
    quiet after = true ∧ calls =
      before ++ [⟨caller, .gpio MsxRuntime.gpResetDrv (.put true)⟩] ++ during ++
        [⟨caller', .gpio MsxRuntime.gpResetDrv (.put false)⟩] ++ after

theorem pulseReset_pulses (a : Alog) (capture : BootCapture.Hardware) (cart : CartServe)
    (detect : Bool) : Pulses (MsxRuntime.pulseReset a capture cart detect) where
  shape := by
    refine ⟨[], FwModule.msxRuntime.calls [.sleepUs 1000] ++ a.reset ++ cart.resetPipeline ++
      (if detect then capture.reset else []) ++ FwModule.msxRuntime.calls [.sleepUs 99000], [],
      .msxRuntime, .msxRuntime, rfl, ?_, rfl, ?_⟩
    · rw [quiet_append, quiet_append, quiet_append, quiet_append, alog_reset_quiet,
        resetPipeline_quiet]
      cases detect with
      | false => rfl
      | true => simp only [if_true, capture_reset_quiet]; rfl
    · simp [MsxRuntime.pulseReset, FwModule.calls, List.append_assoc]

theorem cmdReset_pulses (a : Alog) (capture : BootCapture.Hardware) (cart : CartServe) :
    Pulses (CmdDispatch.cmdReset a capture cart) where
  shape := by
    refine ⟨a.reset ++ capture.reset ++ cart.resetPipeline ++ a.captured ++
        FwModule.cmdDispatch.calls [.gpio CmdDispatch.gpResetIn .get],
      FwModule.cmdDispatch.calls [.sleepUs 50, .gpio CmdDispatch.gpResetIn .get] ++ a.captured ++
        FwModule.cmdDispatch.calls [.sleepUs 50000, .gpio CmdDispatch.gpResetIn .get] ++
        a.captured ++ FwModule.cmdDispatch.calls [.sleepUs 50000],
      FwModule.cmdDispatch.calls [.sleepUs 50, .gpio CmdDispatch.gpResetIn .get] ++ a.captured,
      .cmdDispatch, .cmdDispatch, ?_, ?_, ?_, ?_⟩
    · rw [quiet_append, quiet_append, quiet_append, quiet_append, alog_reset_quiet,
        capture_reset_quiet, resetPipeline_quiet, alog_captured_quiet]
      rfl
    · rw [quiet_append, quiet_append, quiet_append, quiet_append, alog_captured_quiet]
      rfl
    · rw [quiet_append, alog_captured_quiet]
      rfl
    · simp [CmdDispatch.cmdReset, FwModule.calls, CmdDispatch.gpResetDrv, MsxRuntime.gpResetDrv,
        List.append_assoc]

theorem pulseResetPassive_pulses : Pulses MsxRuntime.pulseResetPassive where
  shape := ⟨[], FwModule.msxRuntime.calls [.sleepUs 100000], [], .msxRuntime, .msxRuntime,
    rfl, rfl, rfl, rfl⟩

/-- Quiet calls around a pulse are part of it. -/
theorem Pulses.surround {calls : List Call} (pulses : Pulses calls) {before after : List Call}
    (quietBefore : quiet before = true) (quietAfter : quiet after = true) :
    Pulses (before ++ calls ++ after) := by
  obtain ⟨first, during, last, caller, caller', q, q', q'', rfl⟩ := pulses.shape
  refine ⟨before ++ first, during, last ++ after, caller, caller', ?_, q', ?_, ?_⟩
  · rw [quiet_append, quietBefore, q]
    rfl
  · rw [quiet_append, quietAfter, q'']
    rfl
  · simp [List.append_assoc]

section Pads

variable {p : Pad}

theorem quiet_reset {calls : List Call} (all : quiet calls = true) :
    padAfter MsxRuntime.gpResetDrv p calls = p := by
  refine padAfter_keeps (· = p) (fun c => c.sparesReset = true) ?_ rfl ?_
  · rintro q c rfl spares
    exact Call.sparesReset_onPad spares
  · intro c member
    exact (Bool.and_eq_true _ _ ▸ List.all_eq_true.mp all c member).2

theorem padAfter_put (caller : FwModule) (level : Bool) :
    padAfter MsxRuntime.gpResetDrv p [⟨caller, .gpio MsxRuntime.gpResetDrv (.put level)⟩] =
      { p with out := level } := rfl

/-- A pulse that starts with /RESET released ends with it released. -/
theorem Pulses.released {calls : List Call} (pulses : Pulses calls) (low : p.Drives false) :
    (padAfter MsxRuntime.gpResetDrv p calls).Drives false := by
  obtain ⟨before, during, after, caller, caller', q, q', q'', rfl⟩ := pulses.shape
  subst low
  rw [padAfter_append, quiet_reset q'', padAfter_append, padAfter_put, padAfter_append,
    quiet_reset q', padAfter_append, quiet_reset q, padAfter_put]
  rfl

/-- At every point of a pulse /RESET is driven to one level or the other. -/
theorem Pulses.drives {calls early : List Call} (pulses : Pulses calls) (point : early <+: calls)
    (low : p.Drives false) :
    ∃ level, (padAfter MsxRuntime.gpResetDrv p early).Drives level := by
  obtain ⟨before, during, after, caller, caller', q, q', q'', rfl⟩ := pulses.shape
  refine padAfter_keeps (fun p => ∃ level, p.Drives level)
    (fun c => c.sparesReset = true ∨
      ∃ level, c.call = .gpio MsxRuntime.gpResetDrv (.put level)) ?_ ⟨false, low⟩ ?_
  · rintro p ⟨caller, call⟩ ⟨level, drives⟩ (spares | ⟨level', put⟩)
    · exact ⟨level, by rw [Call.sparesReset_onPad spares]; exact drives⟩
    · subst drives put
      exact ⟨level', rfl⟩
  · intro c member
    have spares : ∀ {calls : List Call}, quiet calls = true → c ∈ calls → c.sparesReset = true :=
      fun all member => (Bool.and_eq_true _ _ ▸ List.all_eq_true.mp all c member).2
    have inside := point.subset member
    simp only [List.mem_append, List.mem_singleton] at inside
    rcases inside with (((h | rfl) | h) | rfl) | h
    · exact .inl (spares q h)
    · exact .inr ⟨true, rfl⟩
    · exact .inl (spares q' h)
    · exact .inr ⟨false, rfl⟩
    · exact .inl (spares q'' h)

theorem Pulses.keepsListening {calls : List Call} (pulses : Pulses calls) :
    ∀ c ∈ calls, c.keepsListening = true := by
  obtain ⟨before, during, after, caller, caller', q, q', q'', rfl⟩ := pulses.shape
  intro c member
  have keeps : ∀ {calls : List Call}, quiet calls = true → c ∈ calls → c.keepsListening = true :=
    fun all member => (Bool.and_eq_true _ _ ▸ List.all_eq_true.mp all c member).1
  simp only [List.mem_append, List.mem_singleton] at member
  rcases member with (((h | rfl) | h) | rfl) | h
  · exact keeps q h
  · rfl
  · exact keeps q' h
  · rfl
  · exact keeps q'' h

end Pads

/-! ## Every step -/

namespace Chip

/-- The steps that pulse /RESET: the reset combo, the RESET command, and the tick
that begins a pass. -/
def PulsesReset (s : Chip) : ChipEvent → Prop
  | .combo => True
  | .command cmd => cmd.type = .reset
  | .tick _ _ _ _ => s.diag.phase = .passBegin
  | _ => False

theorem diagCall_quiet (s : Chip) {c : DiagCall} (other : c ≠ .pulseResetPassive) :
    quiet (s.diagCall c).2 = true := by
  cases c with
  | alogInit => exact alog_init_quiet _
  | bootCaptureInit => exact capture_init_quiet _
  | txnCaptureInit => exact txn_init_quiet _
  | bootDetectReset => rfl
  | bootCaptureReset => exact capture_reset_quiet _
  | txnCaptureReset => exact txn_reset_quiet _
  | pulseResetPassive => exact absurd rfl other
  | bootCaptureStop => exact capture_stop_quiet _
  | txnCaptureStop => exact txn_stop_quiet _

theorem diagCalls_quiet (s : Chip) {calls : List DiagCall}
    (other : ∀ c ∈ calls, c ≠ .pulseResetPassive) : quiet (s.diagCalls calls).2 = true := by
  induction calls generalizing s with
  | nil => rfl
  | cons c calls ih =>
    simp only [diagCalls]
    rw [quiet_append, s.diagCall_quiet (other c (by simp)),
      ih _ fun c' member => other c' (by simp [member])]
    rfl

/-- A tick's calls are quiet, or it begins a pass with one pulse. -/
theorem tick_calls (s : Chip) (nowMs : U32) (snap : BusProbeSnapshot) (bs : BootDetect)
    (bi : BusIntegrity) :
    quiet (s.tick nowMs snap bs bi).2 = true ∨
      (s.diag.phase = .passBegin ∧ Pulses (s.tick nowMs snap bs bi).2) := by
  have outcome := BootDiag.tick_outcome { s.diag with bi := bi } snap bs nowMs
  unfold Chip.tick
  generalize { s.diag with bi := bi }.tick snap bs nowMs = next at outcome
  cases outcome with
  | wait stays early armed => exact .inl rfl
  | beginRound ready requested =>
    refine .inl (diagCalls_quiet _ ?_)
    intro c member
    split at member <;> simp at member <;> rcases member with rfl | rfl | rfl | rfl <;> decide
  | beginPass armed =>
    refine .inr ⟨armed, ?_⟩
    have quietBefore : quiet (s.capture.reset ++ s.txn.reset) = true := by
      rw [quiet_append, capture_reset_quiet, txn_reset_quiet]
      rfl
    have surrounded := pulseResetPassive_pulses.surround quietBefore quiet_nil
    simpa [diagCalls, diagCall, List.append_assoc] using surrounded
  | endWindow capturing late => exact .inl (diagCalls_quiet _ (by simp))
  | nextPass settled late incomplete remaining => exact .inl rfl
  | finish settled late stops => exact .inl rfl

theorem command_calls (s : Chip) (cmd : ParsedCmd) :
    quiet (s.command cmd).2 = true ∨ (cmd.type = .reset ∧ Pulses (s.command cmd).2) := by
  obtain ⟨type, arg⟩ := cmd
  cases type with
  | emuOff => exact .inl (disableDrive_quiet _)
  | reset => exact .inr ⟨rfl, cmdReset_pulses _ _ _⟩
  | alogStatus => exact .inl (alog_captured_quiet _)
  | alogReset => exact .inl (alog_reset_quiet _)
  | alogDebug => exact .inl (alog_printDebug_quiet _)
  | alogSlot => exact .inl (alog_printSlot_quiet _ _)
  | _ => exact .inl rfl

theorem core1_quiet (s : Chip) : quiet s.core1 = true := by
  unfold core1
  split
  · rw [quiet_append, quiet_append, capture_drain_quiet, alog_captured_quiet, txn_drain_quiet]
    rfl
  · rfl

/-- Every step makes quiet calls, or is one of those that pulse /RESET, and pulses it once. -/
theorem step_calls (s : Chip) (e : ChipEvent) :
    quiet (machine.step s e).2 = true ∨ (s.PulsesReset e ∧ Pulses (machine.step s e).2) := by
  simp only [machine]
  split
  · exact .inl rfl
  · cases e with
    | tick nowMs snap bs bi => exact s.tick_calls nowMs snap bs bi
    | button e => exact .inl rfl
    | combo => exact .inr ⟨trivial, pulseReset_pulses _ _ _ _⟩
    | command cmd => exact s.command_calls cmd
    | render => exact .inl rfl
    | core1 => exact .inl s.core1_quiet

theorem step_keepsListening (s : Chip) (e : ChipEvent) :
    ∀ c ∈ (machine.step s e).2, c.keepsListening = true := by
  rcases s.step_calls e with all | ⟨-, pulses⟩
  · exact fun c member => (Bool.and_eq_true _ _ ▸ List.all_eq_true.mp all c member).1
  · exact pulses.keepsListening

/-- GP34 drives HIGH and the data pads and /WAIT listen. -/
structure BusPassive (pads : Nat → Pad) : Prop where
  lvcDir : (pads gpLvcDir).Drives true
  listening : ∀ pin ∈ listeningPins, (pads pin).Listens

/-- Every pad after a list of calls. -/
def padsAfter (pads : Nat → Pad) (calls : List Call) (pin : Nat) : Pad :=
  padAfter pin (pads pin) calls

section Run

variable {pads : Nat → Pad} (reset : ∀ pin, (pads pin).oe = false)

include reset

theorem bringUp_listens {pin : Nat} (listening : pin ∈ listeningPins) :
    (padsAfter pads bringUp pin).Listens := by
  have kept : padsAfter pads bringUp pin = { pads pin with func := .sio } := by
    simp only [listeningPins, List.mem_cons, List.not_mem_nil, or_false] at listening
    rcases listening with rfl | rfl | rfl | rfl | rfl | rfl | rfl | rfl | rfl <;> rfl
  rw [kept]
  exact ⟨rfl, reset pin⟩

omit reset in
theorem bringUp_drives :
    (padsAfter pads bringUp gpLvcDir).Drives true ∧
      (padsAfter pads bringUp MsxRuntime.gpResetDrv).Drives false := ⟨rfl, rfl⟩

/-- At every point of a run after bring-up the bus pads are passive. -/
theorem busPassive_at {s : Chip} {events : List ChipEvent} {calls : List Call}
    (up : bringUp <+: calls) (point : calls <+: bringUp ++ machine.trace s events) :
    BusPassive (padsAfter pads calls) := by
  obtain ⟨made, rfl⟩ := up
  have during : made <+: machine.trace s events := (List.prefix_append_right_inj bringUp).mp point
  have all : ∀ c ∈ made, c.keepsListening = true := by
    intro c member
    exact machine.trace_forall (fun _ => True) (fun _ _ _ => trivial) _
      (fun s e _ => s.step_keepsListening e) (s := s) trivial events c (during.subset member)
  refine ⟨?_, ?_⟩
  · rw [padsAfter, padAfter_append]
    exact padAfter_keeps (·.Drives true) (·.keepsListening = true)
      (fun _ _ => Call.keepsListening_lvcDir) bringUp_drives.1 all
  · intro pin listening
    rw [padsAfter, padAfter_append]
    exact padAfter_keeps Pad.Listens (·.keepsListening = true)
      (fun _ _ => Call.keepsListening_listens listening) (bringUp_listens reset listening) all

end Run

/-- /RESET is released whenever a step has returned. -/
theorem reset_released {s : Chip} (pads : Nat → Pad) (events : List ChipEvent) :
    (padsAfter pads (bringUp ++ machine.trace s events) MsxRuntime.gpResetDrv).Drives false := by
  rw [padsAfter, padAfter_append]
  generalize start : padAfter MsxRuntime.gpResetDrv (pads MsxRuntime.gpResetDrv) bringUp = p
  have low : p.Drives false := start ▸ bringUp_drives.2
  clear start
  induction events generalizing s p with
  | nil => exact low
  | cons e events ih =>
    rw [Machine.trace_cons, padAfter_append]
    apply ih
    rcases s.step_calls e with all | ⟨-, pulses⟩
    · rw [quiet_reset all]
      exact low
    · exact pulses.released low

/-- Within a step /RESET is driven, and HIGH only if the step is a reset pulse. -/
theorem reset_during {s : Chip} (pads : Nat → Pad) (events : List ChipEvent) (e : ChipEvent)
    {early : List Call} (point : early <+: (machine.step (machine.final s events) e).2) :
    ∃ level, (padsAfter pads (bringUp ++ machine.trace s events ++ early)
        MsxRuntime.gpResetDrv).Drives level ∧
      (level = true → (machine.final s events).PulsesReset e) := by
  have low := reset_released (s := s) pads events
  rw [padsAfter] at low
  rw [padsAfter, padAfter_append]
  rcases (machine.final s events).step_calls e with all | ⟨pulse, pulses⟩
  · have quietEarly : quiet early = true := by
      apply List.all_eq_true.mpr
      intro c member
      exact List.all_eq_true.mp all c (point.subset member)
    exact ⟨false, by rw [quiet_reset quietEarly]; exact low, fun h => Bool.noConfusion h⟩
  · obtain ⟨level, drives⟩ := pulses.drives point low
    exact ⟨level, drives, fun _ => pulse⟩

/-- In every run of the shipped firmware the bus pads are passive at every point
after bring-up, and /RESET is driven HIGH only inside a blocking pulse. -/
theorem cart_never_drives (offset : PioProgram → Nat) (lutHigh : U32) {pads : Nat → Pad}
    (reset : ∀ pin, (pads pin).oe = false) (events : List ChipEvent) :
    let s := initial offset lutHigh
    (∀ calls, bringUp <+: calls → calls <+: bringUp ++ machine.trace s events →
      BusPassive (padsAfter pads calls)) ∧
    (padsAfter pads (bringUp ++ machine.trace s events) MsxRuntime.gpResetDrv).Drives false ∧
    ∀ e early, early <+: (machine.step (machine.final s events) e).2 →
      ∃ level, (padsAfter pads (bringUp ++ machine.trace s events ++ early)
          MsxRuntime.gpResetDrv).Drives level ∧
        (level = true → (machine.final s events).PulsesReset e) :=
  ⟨fun _ up point => busPassive_at reset up point, reset_released pads events,
    fun e _ point => reset_during pads events e point⟩

/-- Every pad as the chip's reset leaves it. -/
def padsAtReset : Nat → Pad := fun _ => ⟨.null, false, false⟩

theorem emuOff_reset_combo_passive :
    let s := initial (fun _ => 0) 0x2001#32
    let events : List ChipEvent := [.command ⟨.emuOff, 0#16⟩, .command ⟨.reset, 0#16⟩, .combo]
    BusPassive (padsAfter padsAtReset (bringUp ++ machine.trace s events)) :=
  (cart_never_drives _ _ (fun _ => rfl) _).1 _ (List.prefix_append _ _) (List.prefix_refl _)

end Chip

end MsxPulse.Firmware
