import MsxPulse.Firmware.Chip.Passive

/-!
# Serving until EMU OFF (msx_runtime.c, cart_serve.c, cmd_dispatch.c)

A chip that was brought up to serve the ROM, under the same main loop. PIO2 keeps the data
pads, /WAIT and the transceivers' direction, through resets, rounds and every command but
EMU OFF. After EMU OFF nothing gives them back.
-/

namespace MsxPulse.Firmware.Chip

open Library

/-- What `msx_runtime_serve_detect_init` does to the /RESET pads and the input pads. -/
def inputPads : List Call := FwModule.msxRuntime.calls (
  [ .gpio MsxRuntime.gpResetDrv .init, .gpio MsxRuntime.gpResetDrv (.put false)
  , .gpio MsxRuntime.gpResetDrv (.setDir true)
  , .gpio MsxRuntime.gpReset .init, .gpio MsxRuntime.gpReset (.setDir false) ] ++
  (List.range' 0 16).map (.gpio · (.setFunction .sio)) ++
  ((List.range' 24 8).filter (· ≠ 30)).map (.gpio · (.setFunction .sio)) ++
  (List.range' 0 16).map (.gpio · .disablePulls) ++
  (List.range' 24 8).map (.gpio · .disablePulls) ++
  [.gpio gpLvcDir .disablePulls, .gpio MsxRuntime.gpReset .disablePulls])

/-- `msx_runtime_serve_detect_init`; `rom_lut` is where the linker has placed it. -/
def serveDetectInit (s : Chip) (withDetect : Bool) : Option (Chip × List Call) := do
  let (cart, sdk, cartInit) ← CartServe.init s.cart.lutHigh s.sdk
  let (alog, sdk, alogInit) := Alog.init sdk
  let (capture, sdk, captureInit) :=
    if withDetect then BootCapture.Hardware.init sdk else (s.capture, sdk, [])
  return ({ s with sdk, alog, capture, cart, detect := withDetect },
    cartInit ++ inputPads ++ busBuffersEnable ++ CartServe.arm ++ alogInit ++ captureInit)

/-- The pads that `cart_read` drives: D0..D7, /WAIT and the transceivers' direction. -/
def servePins : List Nat := listeningPins ++ [gpLvcDir]

/-- PIO2 has the pads, and the transceivers are enabled. -/
structure Serving (pads : Nat → Pad) : Prop where
  pio2 : ∀ pin ∈ servePins, (pads pin).func = .pio .pio2
  enabled : (pads gpLvcOen).Drives false

def IsEmuOff (e : ChipEvent) : Prop := ∃ cmd, e = .command cmd ∧ cmd.type = .emuOff

/-- The call is for no pad, or for one of the /RESET pads. -/
def sparesBus (calls : List Call) : Bool :=
  calls.all fun c =>
    match c.call with
    | .gpio pin _ => decide (pin = MsxRuntime.gpReset) || decide (pin = MsxRuntime.gpResetDrv)
    | _ => true

section Functions

variable (a : Alog) (capture : BootCapture.Hardware) (txn : TxnCapture.Hardware) (cart : CartServe)

theorem sparesBus_append (first second : List Call) :
    sparesBus (first ++ second) = (sparesBus first && sparesBus second) := by
  simp [sparesBus]

theorem sparesBus_captured : sparesBus a.captured = true := by
  unfold Alog.captured
  split <;> rfl

theorem sparesBus_captureReset : sparesBus capture.reset = true := by
  unfold BootCapture.Hardware.reset
  split <;> rfl

theorem sparesBus_txnReset : sparesBus txn.reset = true := by
  unfold TxnCapture.Hardware.reset
  split <;> rfl

theorem sparesBus_txnStop : sparesBus txn.stop = true := by
  unfold TxnCapture.Hardware.stop
  split <;> rfl

theorem sparesBus_txnDrain : sparesBus txn.drain = true := by
  unfold TxnCapture.Hardware.drain
  split <;> rfl

theorem sparesBus_pulseReset (detect : Bool) :
    sparesBus (MsxRuntime.pulseReset a capture cart detect) = true := by
  unfold MsxRuntime.pulseReset
  simp only [sparesBus_append]
  cases detect with
  | false => rfl
  | true =>
    rw [if_pos rfl, sparesBus_captureReset]
    rfl

theorem sparesBus_cmdReset : sparesBus (CmdDispatch.cmdReset a capture cart) = true := by
  unfold CmdDispatch.cmdReset
  simp only [sparesBus_append, sparesBus_captured, sparesBus_captureReset]
  rfl

theorem sparesBus_command {cmd : ParsedCmd} (other : cmd.type ≠ .emuOff) :
    sparesBus (CmdDispatch.cmdDispatch a capture cart cmd) = true := by
  obtain ⟨type, arg⟩ := cmd
  cases type with
  | emuOff => exact absurd rfl other
  | reset => exact sparesBus_cmdReset a capture cart
  | alogStatus => exact sparesBus_captured a
  | alogDebug =>
    show sparesBus a.printDebug = true
    unfold Alog.printDebug
    simp only [sparesBus_append, sparesBus_captured]
    rfl
  | alogSlot =>
    show sparesBus (a.printSlot arg) = true
    unfold Alog.printSlot
    split
    · rfl
    · exact sparesBus_captured a
  | _ => rfl

end Functions

theorem sparesBus_diagCalls (s : Chip) (calls : List DiagCall) :
    sparesBus (s.diagCalls calls).2 = true := by
  induction calls generalizing s with
  | nil => rfl
  | cons c calls ih =>
    have first : sparesBus (s.diagCall c).2 = true := by
      cases c with
      | bootCaptureReset => exact sparesBus_captureReset s.capture
      | txnCaptureReset => exact sparesBus_txnReset s.txn
      | txnCaptureStop => exact sparesBus_txnStop s.txn
      | _ => rfl
    simp only [diagCalls]
    rw [sparesBus_append, first, ih]
    rfl

/-- Only EMU OFF reaches the pads of the bus. -/
theorem step_sparesBus (s : Chip) {e : ChipEvent} (other : ¬ IsEmuOff e) :
    sparesBus (machine.step s e).2 = true := by
  simp only [machine]
  split
  · rfl
  · cases e with
    | tick nowMs snap bs bi => exact sparesBus_diagCalls _ _
    | combo => exact sparesBus_pulseReset _ _ _ _
    | command cmd => exact sparesBus_command _ _ _ fun off => other ⟨cmd, rfl, off⟩
    | core1 =>
      show sparesBus s.core1 = true
      unfold core1
      split
      · simp only [sparesBus_append, sparesBus_captured, sparesBus_txnDrain]
        rfl
      · rfl
    | _ => rfl

theorem trace_sparesBus (s : Chip) {events : List ChipEvent} (served : ∀ e ∈ events, ¬ IsEmuOff e) :
    sparesBus (machine.trace s events) = true := by
  induction events generalizing s with
  | nil => rfl
  | cons e events ih =>
    rw [Machine.trace_cons, sparesBus_append, s.step_sparesBus (served e List.mem_cons_self),
      ih _ fun e' later => served e' (List.mem_cons_of_mem e later)]
    rfl

theorem padsAfter_append (pads : Nat → Pad) (first second : List Call) :
    padsAfter pads (first ++ second) = padsAfter (padsAfter pads first) second := by
  funext pin
  exact padAfter_append pin (pads pin) first second

/-- Pads other than those of /RESET stay as they are. -/
theorem padsAfter_sparesBus (pads : Nat → Pad) {calls : List Call} (spares : sparesBus calls = true)
    {pin : Nat} (input : pin ≠ MsxRuntime.gpReset) (drive : pin ≠ MsxRuntime.gpResetDrv) :
    padsAfter pads calls pin = pads pin := by
  unfold padsAfter
  refine padAfter_keeps (· = pads pin) (· ∈ calls) ?_ rfl fun _ member => member
  rintro p ⟨caller, call⟩ rfl member
  have here := List.all_eq_true.mp spares _ member
  cases call with
  | gpio target op =>
    have other : target ≠ pin := by
      rintro rfl
      simp only [Bool.or_eq_true, decide_eq_true_eq] at here
      exact here.elim input drive
    simp [Call.onPad, other]
  | _ => rfl

theorem Serving.kept {pads : Nat → Pad} (serving : Serving pads) {calls : List Call}
    (spares : sparesBus calls = true) : Serving (padsAfter pads calls) where
  pio2 pin member := by
    have bus : ∀ pin ∈ servePins, pin ≠ MsxRuntime.gpReset ∧ pin ≠ MsxRuntime.gpResetDrv := by
      decide
    rw [padsAfter_sparesBus pads spares (bus pin member).1 (bus pin member).2]
    exact serving.pio2 pin member
  enabled := by
    rw [padsAfter_sparesBus pads spares (by decide) (by decide)]
    exact serving.enabled

/-- `cart_serve_init` hands the pads to PIO2. -/
theorem initCalls_pio2 (cart : CartServe) (pads : Nat → Pad) :
    ∀ pin ∈ servePins,
      (padsAfter pads (FwModule.cartServe.calls cart.initCalls) pin).func = .pio .pio2 := by
  simp only [servePins, listeningPins, List.cons_append, List.nil_append, List.forall_mem_cons]
  exact ⟨rfl, rfl, rfl, rfl, rfl, rfl, rfl, rfl, rfl, rfl, by simp⟩

/-- The call leaves the pad's function select alone. -/
def leavesFunction (pin : Nat) (c : Call) : Bool :=
  match c.call with
  | .gpio target .init => decide (target ≠ pin)
  | .gpio target (.setFunction _) => decide (target ≠ pin)
  | _ => true

theorem padsAfter_func {pads : Nat → Pad} {calls : List Call} {f : GpioFunction}
    (all : ∀ pin ∈ servePins, ∀ c ∈ calls, leavesFunction pin c = true)
    (before : ∀ pin ∈ servePins, (pads pin).func = f) :
    ∀ pin ∈ servePins, (padsAfter pads calls pin).func = f := by
  intro pin member
  refine padAfter_keeps (·.func = f) (leavesFunction pin · = true) ?_ (before pin member)
    (all pin member)
  rintro p ⟨caller, call⟩ func leaves
  cases call with
  | gpio target op =>
    by_cases here : target = pin
    · cases op <;> simp_all [leavesFunction, Call.onPad, GpioOp.apply]
    · simp [Call.onPad, here, func]
  | _ => exact func

/-- Neither the input pads nor the transceivers' enable are among them. -/
theorem serving_of_pio2 {pads : Nat → Pad} (pio2 : ∀ pin ∈ servePins, (pads pin).func = .pio .pio2) :
    Serving (padsAfter (padsAfter pads inputPads) busBuffersEnable) where
  pio2 := padsAfter_func (by decide) (padsAfter_func (by decide) pio2)
  enabled := rfl

theorem serving_of_init {s s' : Chip} {withDetect : Bool} {calls : List Call}
    (up : s.serveDetectInit withDetect = some (s', calls)) (pads : Nat → Pad) :
    Serving (padsAfter pads calls) := by
  unfold serveDetectInit CartServe.init at up
  by_cases inOrder : s.sdk.unclaimed < s.sdk.claim.unclaimed
  · rw [if_pos inOrder] at up
    obtain ⟨rfl, rfl⟩ := Prod.mk.inj (Option.some.inj up)
    simp only [padsAfter_append]
    refine (((serving_of_pio2 (initCalls_pio2 _ pads)).kept rfl).kept rfl).kept ?_
    cases withDetect <;> rfl
  · rw [if_neg inOrder] at up
    exact absurd up (by simp)

/-- What EMU OFF does to the pads, whoever has them. -/
theorem disableDrive_passive (cart : CartServe) (pads : Nat → Pad) :
    BusPassive (padsAfter pads cart.disableDrive) where
  lvcDir := rfl
  listening := by
    simp only [listeningPins, List.forall_mem_cons]
    exact ⟨⟨rfl, rfl⟩, ⟨rfl, rfl⟩, ⟨rfl, rfl⟩, ⟨rfl, rfl⟩, ⟨rfl, rfl⟩, ⟨rfl, rfl⟩, ⟨rfl, rfl⟩,
      ⟨rfl, rfl⟩, ⟨rfl, rfl⟩, by simp⟩

theorem BusPassive.kept {pads : Nat → Pad} (passive : BusPassive pads) {calls : List Call}
    (all : ∀ c ∈ calls, c.keepsListening = true) : BusPassive (padsAfter pads calls) where
  lvcDir := padAfter_keeps (·.Drives true) (·.keepsListening = true)
    (fun _ _ => Call.keepsListening_lvcDir) passive.lvcDir all
  listening pin member := padAfter_keeps Pad.Listens (·.keepsListening = true)
    (fun _ _ => Call.keepsListening_listens member) (passive.listening pin member) all

theorem emuOff_calls {s : Chip} (running : s.halted = false) {cmd : ParsedCmd}
    (off : cmd.type = .emuOff) : (machine.step s (.command cmd)).2 = s.cart.disableDrive := by
  simp [machine, running, step, command, CmdDispatch.cmdDispatch, off]

/-- After a bring-up that serves the ROM, the pads of the bus are PIO2's at every point up to
the first EMU OFF, and passive at every point of the run after one. -/
theorem serving_until_emuOff {s s' : Chip} {withDetect : Bool} {init : List Call}
    (up : s.serveDetectInit withDetect = some (s', init)) (pads : Nat → Pad)
    {before : List ChipEvent} (served : ∀ e ∈ before, ¬ IsEmuOff e)
    (running : (machine.final s' before).halted = false) {cmd : ParsedCmd}
    (off : cmd.type = .emuOff) (after : List ChipEvent) :
    (∀ made, made <+: machine.trace s' before → Serving (padsAfter pads (init ++ made))) ∧
    ∀ made, made <+: machine.trace (machine.final s' (before ++ [.command cmd])) after →
      BusPassive (padsAfter pads
        (init ++ machine.trace s' (before ++ [.command cmd]) ++ made)) := by
  refine ⟨?_, ?_⟩
  · intro made point
    have spares : sparesBus made = true := by
      refine List.all_eq_true.mpr fun c member => ?_
      exact List.all_eq_true.mp (trace_sparesBus s' served) c (point.subset member)
    rw [padsAfter_append]
    exact (serving_of_init up pads).kept spares
  · intro made point
    have last : machine.trace s' (before ++ [.command cmd]) =
        machine.trace s' before ++ (machine.final s' before).cart.disableDrive := by
      rw [Machine.trace_append, Machine.trace_cons, emuOff_calls running off, Machine.trace_nil,
        List.append_nil]
    have all : ∀ c ∈ made, c.keepsListening = true := by
      intro c member
      exact machine.trace_forall (fun _ => True) (fun _ _ _ => trivial) _
        (fun s e _ => s.step_keepsListening e) trivial after c (point.subset member)
    rw [last, padsAfter_append, ← List.append_assoc, padsAfter_append]
    exact (disableDrive_passive _ _).kept all

/-- A chip that serves, with the ROM's table at 0x20010000. -/
def serveDetect : Option (Chip × List Call) :=
  (initial (fun _ => 0) 0x2001#32).serveDetectInit true

theorem serving_until_emuOff_reset : ∃ s init, serveDetect = some (s, init) ∧
    (∀ made, made <+: machine.trace s [.combo] → Serving (padsAfter padsAtReset (init ++ made))) ∧
    ∀ made, made <+: machine.trace (machine.final s [.combo, .command ⟨.emuOff, 0#16⟩])
        [.command ⟨.reset, 0#16⟩, .combo] →
      BusPassive (padsAfter padsAtReset
        (init ++ machine.trace s [.combo, .command ⟨.emuOff, 0#16⟩] ++ made)) := by
  refine ⟨_, _, rfl, ?_⟩
  exact @serving_until_emuOff (initial (fun _ => 0) 0x2001#32) _ true _ rfl padsAtReset [.combo]
    (by simp [IsEmuOff]) rfl _ rfl _

end MsxPulse.Firmware.Chip
