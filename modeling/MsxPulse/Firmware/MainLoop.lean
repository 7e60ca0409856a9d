import MsxPulse.Firmware.Ui.Handover
import MsxPulse.Firmware.UsbSerial
import MsxPulse.Library.TextSize

/-!
# The main loop (main.c)

One iteration with its three millisecond timers, around the round and the menu of
`Ui.Loop`. Time is a natural number of milliseconds since boot, of which the loop sees
the low 32 bits. `now` is the observer's record of the last iteration. Buttons, commands
and rails are what `buttons_poll`, `usb_serial_get_cmd` and `adc_rails_snapshot` return
when they are asked.
-/

namespace MsxPulse.Firmware

open Library

/-- `display_state_t` -/
inductive DisplayState where
  | boot
  | monitoring
  | firmwareUpdate
  | msxHealth
  deriving DecidableEq

/-- A float, by what `%<width>.<precision>f` makes of it. -/
structure Volts where
  fmt : Nat → Nat → List U8

/-- At most `n` characters in every format that the firmware prints voltages in. -/
def Volts.Short (n : Nat) (v : Volts) : Prop :=
  ∀ width ≤ 6, ∀ precision ≤ 2, CString.Sized n (v.fmt width precision)

/-- The verdicts in `rail_snapshot_t`: 0 OK, 1 WARN, 2 FAIL, 3 ABSENT. -/
structure RailStatus where
  status5v : U8
  status12v : U8
  statusM12v : U8
  deriving DecidableEq

namespace RailStatus

variable (r : RailStatus)

/-- `msx_present` -/
def msxPresent : Bool := r.status5v != 3#8 || r.status12v != 3#8
/-- `any_fail` -/
def anyFail : Bool := r.status5v == 2#8 || r.status12v == 2#8 || r.statusM12v == 2#8

def failing : Bool := r.msxPresent && r.anyFail

end RailStatus

structure MainLoop where
  lastRailUpdateMs : U32
  lastBtnPollMs : U32
  lastOledMs : U32
  faultCount : U8
  displayState : DisplayState
  oledPresent : Bool
  menu : Ui.Loop
  halted : Bool
  now : Nat

structure MainInput where
  timeMs : Nat
  snap : BusProbeSnapshot
  bs : BootDetect
  bi : BusIntegrity
  rails : RailStatus
  btn : BtnEvent
  cmd : Option ParsedCmd

/-- A poll of the rails, and whether it found a fault. -/
structure RailPoll where
  timeMs : Nat
  failing : Bool
  deriving DecidableEq

namespace MainInput

variable (i : MainInput)

def nowMs : U32 := BitVec.ofNat 32 i.timeMs

def isBoot : Bool := i.cmd.any fun c => c.type = .boot
def isUpdate : Bool := i.cmd.any fun c => c.type = .update

/-- The iteration as the round and the menu see it, if every timer has run out. -/
def seen : Ui.Iteration := ⟨i.nowMs, i.snap, i.bs, i.bi, i.btn, i.isBoot, true⟩

end MainInput

namespace MainLoop

/-- `FAULT_DEBOUNCE` -/
def faultDebounce : U8 := 4#8

/-- Before the first iteration, `now` milliseconds after boot. -/
def initial (oledPresent : Bool) (now : Nat) : MainLoop where
  lastRailUpdateMs := 0#32
  lastBtnPollMs := 0#32
  lastOledMs := 0#32
  faultCount := 0#8
  displayState := .monitoring
  oledPresent := oledPresent
  menu := .initial
  halted := false
  now := now

/-- `ui_notify_power_fault` -/
def notifyPowerFault (s : MainLoop) (faulted : Bool) : MainLoop :=
  { s with menu := { s.menu with ui := { s.menu.ui with powerFault := faulted } } }

def tick (s : MainLoop) (i : MainInput) : MainLoop :=
  { s with menu := s.menu.tick i.seen, now := i.timeMs }

def railsDue (s : MainLoop) (i : MainInput) : Prop := i.nowMs - s.lastRailUpdateMs ≥ 500#32
def btnDue (s : MainLoop) (i : MainInput) : Prop := i.nowMs - s.lastBtnPollMs ≥ 1#32
def oledDue (s : MainLoop) (i : MainInput) : Prop := i.nowMs - s.lastOledMs ≥ 100#32

instance (s : MainLoop) (i : MainInput) : Decidable (s.railsDue i) :=
  inferInstanceAs (Decidable (_ ≥ _))
instance (s : MainLoop) (i : MainInput) : Decidable (s.btnDue i) :=
  inferInstanceAs (Decidable (_ ≥ _))
instance (s : MainLoop) (i : MainInput) : Decidable (s.oledDue i) :=
  inferInstanceAs (Decidable (_ ≥ _))

/-- A poll of the rails. -/
def pollRails (s : MainLoop) (i : MainInput) : MainLoop :=
  let s := { s with lastRailUpdateMs := i.nowMs }
  if i.rails.failing then
    let count := if s.faultCount < faultDebounce then s.faultCount + 1#8 else s.faultCount
    let s := { s with faultCount := count }
    if count ≥ faultDebounce then s.notifyPowerFault true else s
  else { s with faultCount := 0#8 }.notifyPowerFault false

/-- A poll of the buttons. The combo only pulses /RESET. -/
def pollButtons (s : MainLoop) (i : MainInput) : MainLoop :=
  let s := { s with lastBtnPollMs := i.nowMs }
  if i.btn ≠ .none ∧ s.displayState = .msxHealth then { s with displayState := .monitoring }
  else { s with menu := s.menu.button i.seen }

/-- `cmd_dispatch`, as far as the round, the menu and the display go. UPDATE does not
return. -/
def command (s : MainLoop) (i : MainInput) : MainLoop :=
  let s := { s with menu := s.menu.boot i.seen }
  if i.isUpdate then { s with displayState := .firmwareUpdate, halted := true } else s

/-- A refresh, with `oled_refresh`. -/
def refresh (s : MainLoop) (i : MainInput) : MainLoop :=
  let s := { s with lastOledMs := i.nowMs }
  if s.oledPresent then
    match s.displayState with
    | .boot => s
    | .firmwareUpdate => s
    | _ => { s with menu := s.menu.render i.seen }
  else s

def railsTurn (s : MainLoop) (i : MainInput) : MainLoop := if s.railsDue i then s.pollRails i else s
def btnTurn (s : MainLoop) (i : MainInput) : MainLoop := if s.btnDue i then s.pollButtons i else s
def oledTurn (s : MainLoop) (i : MainInput) : MainLoop :=
  if s.halted then s else if s.oledDue i then s.refresh i else s

/-- The body of the loop. -/
def body (s : MainLoop) (i : MainInput) : MainLoop :=
  ((((s.tick i).railsTurn i).btnTurn i).command i).oledTurn i

/-- Runs of the loop; a poll of the rails is emitted. -/
def machine : Machine MainLoop MainInput RailPoll where
  step s i :=
    if s.halted then (s, [])
    else (s.body i, if s.railsDue i then [⟨i.timeMs, i.rails.failing⟩] else [])

/-- Iterations follow each other within `gap` milliseconds. -/
def Paced (gap : Nat) (s : MainLoop) (i : MainInput) : Prop :=
  s.now ≤ i.timeMs ∧ i.timeMs ≤ s.now + gap

instance (gap : Nat) (s : MainLoop) (i : MainInput) : Decidable (s.Paced gap i) :=
  inferInstanceAs (Decidable (_ ∧ _))

/-! ## The menu inside the loop -/

/-- A menu that differs in the fault flag only. -/
def withFault (m : Ui.Loop) (faulted : Bool) : Ui.Loop :=
  { m with ui := { m.ui with powerFault := faulted } }

section Fault

variable (m : Ui.Loop) (faulted : Bool) (it : Ui.Iteration)

/-- Buttons do not look at the fault flag. -/
theorem handleBtn_fault (u : Ui) (e : BtnEvent) :
    { u with powerFault := faulted }.handleBtn e =
      ({ (u.handleBtn e).1 with powerFault := faulted }, (u.handleBtn e).2) := by
  unfold Ui.handleBtn Ui.handleResults Ui.handleSettings Ui.handleCarousel
  cases e <;> dsimp only <;> split_ifs <;> rfl

theorem button_withFault : (withFault m faulted).button it = withFault (m.button it) faulted := by
  unfold Ui.Loop.button withFault
  rw [handleBtn_fault]

theorem boot_withFault : (withFault m faulted).boot it = withFault (m.boot it) faulted := by
  unfold Ui.Loop.boot
  split <;> rfl

theorem render_withFault : (withFault m faulted).render it = withFault (m.render it) faulted := by
  unfold Ui.Loop.render
  split
  · unfold withFault Ui.render
    split <;> rfl
  · rfl

end Fault

/-- The iteration as the menu sees it. -/
def asked (s : MainLoop) (i : MainInput) : Ui.Iteration :=
  { i.seen with
    btn := if s.btnDue i then i.btn else .none
    render := decide (i.isUpdate = false ∧ s.oledDue i ∧ s.oledPresent = true) }

/-- The fault counter after a poll of the rails. -/
def counted (s : MainLoop) (r : RailStatus) : U8 :=
  if r.failing then if s.faultCount < faultDebounce then s.faultCount + 1#8 else s.faultCount
  else 0#8

/-- The fault flag after a poll of the rails. -/
def faulted (s : MainLoop) (r : RailStatus) : Bool :=
  r.failing && (decide (s.counted r ≥ faultDebounce) || s.menu.ui.powerFault)

section Body

variable (s : MainLoop) (i : MainInput)

theorem pollRails_eq :
    s.pollRails i = { s with
      lastRailUpdateMs := i.nowMs
      faultCount := s.counted i.rails
      menu := withFault s.menu (s.faulted i.rails) } := by
  unfold pollRails faulted counted
  cases failing : i.rails.failing with
  | false => rfl
  | true =>
    simp only [if_true, Bool.true_and]
    generalize (if s.faultCount < faultDebounce then s.faultCount + 1#8 else s.faultCount) = count
    by_cases reached : count ≥ faultDebounce
    · rw [if_pos reached, decide_eq_true reached]
      rfl
    · rw [if_neg reached, decide_eq_false reached]
      rfl

theorem railsTurn_eq : s.railsTurn i = { s with
    lastRailUpdateMs := if s.railsDue i then i.nowMs else s.lastRailUpdateMs
    faultCount := if s.railsDue i then s.counted i.rails else s.faultCount
    menu := withFault s.menu (if s.railsDue i then s.faulted i.rails else s.menu.ui.powerFault) } := by
  unfold railsTurn
  by_cases due : s.railsDue i
  · rw [if_pos due, pollRails_eq, if_pos due, if_pos due, if_pos due]
  · rw [if_neg due, if_neg due, if_neg due, if_neg due]
    rfl

theorem btnTurn_eq (monitoring : s.displayState = .monitoring) : s.btnTurn i = { s with
    lastBtnPollMs := if s.btnDue i then i.nowMs else s.lastBtnPollMs
    menu := s.menu.button { i.seen with btn := if s.btnDue i then i.btn else .none } } := by
  have elsewhere : ¬ (i.btn ≠ .none ∧ s.displayState = .msxHealth) := by
    rw [monitoring]
    exact fun h => nomatch h.2
  unfold btnTurn pollButtons
  by_cases due : s.btnDue i
  · simp only [due, if_true, if_neg elsewhere]
    rfl
  · simp only [due, if_false]
    rfl

theorem oledTurn_eq (monitoring : s.displayState = .monitoring) (running : s.halted = false) :
    (s.command i).oledTurn i = { s with
      lastOledMs := if i.isUpdate = false ∧ s.oledDue i then i.nowMs else s.lastOledMs
      displayState := if i.isUpdate then .firmwareUpdate else .monitoring
      menu := (s.menu.boot i.seen).render { i.seen with
        render := decide (i.isUpdate = false ∧ s.oledDue i ∧ s.oledPresent = true) }
      halted := i.isUpdate } := by
  obtain ⟨rails, btn, oled, count, display, present, menu, halted, now⟩ := s
  obtain rfl : display = .monitoring := monitoring
  obtain rfl : halted = false := running
  unfold oledTurn command refresh Ui.Loop.render
  cases update : i.isUpdate with
  | true => simp
  | false =>
    by_cases due : i.nowMs - oled ≥ 100#32
    · cases present <;> simp [oledDue, due, MainInput.seen]
    · simp [oledDue, due]

/-- With nothing but the monitoring pages, the loop is a run of the menu in which polls
of the rails set the fault flag. -/
theorem body_eq (monitoring : s.displayState = .monitoring) (running : s.halted = false) :
    s.body i = { s with
      lastRailUpdateMs := if s.railsDue i then i.nowMs else s.lastRailUpdateMs
      lastBtnPollMs := if s.btnDue i then i.nowMs else s.lastBtnPollMs
      lastOledMs := if i.isUpdate = false ∧ s.oledDue i then i.nowMs else s.lastOledMs
      faultCount := if s.railsDue i then s.counted i.rails else s.faultCount
      displayState := if i.isUpdate then .firmwareUpdate else .monitoring
      menu := withFault (Ui.Loop.machine.step s.menu (s.asked i)).1
        (if s.railsDue i then s.faulted i.rails else s.menu.ui.powerFault)
      halted := i.isUpdate
      now := i.timeMs } := by
  unfold body
  rw [railsTurn_eq, btnTurn_eq _ _ (by exact monitoring),
    oledTurn_eq _ _ (by exact monitoring) (by exact running)]
  dsimp only
  rw [button_withFault, boot_withFault, render_withFault]
  rfl

end Body

end MainLoop

end MsxPulse.Firmware
