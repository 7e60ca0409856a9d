import Mathlib.Logic.Function.Basic
import MsxPulse.Library.Machine
import MsxPulse.Firmware.Types

/-!
# The buttons (buttons.c)

`buttons_poll` runs four passes over three buttons: sample and debounce, the combo,
deferred shorts, and the hold-to-fire of SELECT. Any of them can return at once.
`BTN_NONE` is `none`.
-/

namespace MsxPulse.Firmware

inductive Button where
  | up
  | down
  | select
  deriving DecidableEq

namespace Button

/-- The GPIO of each button; the lines idle HIGH. -/
def gpio : Button → Nat
  | up => 39
  | down => 43
  | select => 44

/-- The order of the array `btns`. -/
def all : List Button := [up, down, select]

end Button

def debounceMs : U32 := 20
def comboWindowMs : U32 := 100
def selectHoldMs : U32 := 200

/-- `btn_state_t`, less its constants. -/
structure BtnState where
  lastChangeMs : U32
  pressStartMs : U32
  stable : Bool
  prevRaw : Bool
  heldReported : Bool
  pendingShort : Bool
  armed : Bool
  holdFired : Bool

/-- `g_combo` -/
structure Combo where
  a : Option Button
  b : Option Button
  holdMs : U32
  bothPressedSinceMs : U32
  intentActive : Bool
  fired : Bool
  consumed : Bool

structure Buttons where
  btns : Button → BtnState
  combo : Combo

namespace BtnState

/-- `buttons_init` of one button; only SELECT starts without being armed. -/
def initial (e : Button) (b : BtnState) : BtnState :=
  { b with
    lastChangeMs := 0, stable := true, prevRaw := true, heldReported := false
    pendingShort := false, holdFired := false, armed := e ≠ .select }

/-- `is_debounced_pressed` -/
def debouncedPressed (b : BtnState) (now : U32) : Bool :=
  !b.prevRaw && decide (now - b.lastChangeMs ≥ debounceMs)

/-- Take the level of the line. -/
def sample (b : BtnState) (raw : Bool) (now : U32) : BtnState :=
  if raw ≠ b.prevRaw then { b with prevRaw := raw, lastChangeMs := now, heldReported := false }
  else b

/-- Arm after a release past the debounce window. -/
def arm (b : BtnState) (now : U32) : BtnState :=
  if b.prevRaw && decide (now - b.lastChangeMs ≥ debounceMs) then { b with armed := true } else b

/-- The press is new: it was released before and counts. -/
def press (b : BtnState) (now : U32) : BtnState :=
  { b with stable := false, pressStartMs := now, holdFired := false }

def release (b : BtnState) : BtnState := { b with stable := true, pendingShort := false }

def clearShort (b : BtnState) : BtnState := { b with pendingShort := false }

/-- The deferred short is due. -/
def shortDue (b : BtnState) (now : U32) : Bool :=
  b.pendingShort && decide (now - b.pressStartMs ≥ comboWindowMs)

/-- The hold of SELECT is due. -/
def holdDue (b : BtnState) (now : U32) : Bool :=
  !b.stable && !b.holdFired && b.debouncedPressed now &&
    decide (now - b.pressStartMs ≥ selectHoldMs)

end BtnState

namespace Combo

/-- `is_combo_btn` -/
def isComboBtn (c : Combo) (e : Button) : Bool :=
  decide (c.holdMs > 0) && (c.a == some e || c.b == some e)

/-- Both are down: open an episode if none is. -/
def openEpisode (c : Combo) (now : U32) : Combo :=
  if c.intentActive then c else
    { c with intentActive := true, bothPressedSinceMs := now, fired := false, consumed := false }

/-- Fire once the episode is long enough. -/
def fire (c : Combo) (now : U32) : Combo :=
  if !c.fired && decide (now - c.bothPressedSinceMs ≥ c.holdMs) then
    { c with fired := true, consumed := false }
  else c

def bothDown (c : Combo) (now : U32) : Combo := (c.openEpisode now).fire now

end Combo

namespace Buttons

/-- The static storage at start. -/
def zero : Buttons where
  btns _ := ⟨0, 0, false, false, false, false, false, false⟩
  combo := ⟨none, none, 0, 0, false, false, false⟩

/-- `buttons_init` -/
def init (s : Buttons) : Buttons where
  btns e := (s.btns e).initial e
  combo := { s.combo with
    a := none, b := none, holdMs := 0, intentActive := false, fired := false, consumed := true }

/-- `buttons_set_combo` -/
def setCombo (s : Buttons) (a b : Option Button) (holdMs : U32) : Buttons :=
  { s with combo := { s.combo with
      a, b, holdMs, intentActive := false, fired := false, consumed := true } }

/-- `buttons_combo_check` -/
def comboCheck (s : Buttons) : Buttons × Bool :=
  if s.combo.fired && !s.combo.consumed then
    ({ s with combo := { s.combo with consumed := true } }, true)
  else (s, false)

def set (s : Buttons) (e : Button) (b : BtnState) : Buttons :=
  { s with btns := Function.update s.btns e b }

@[simp] theorem set_btns_self (s : Buttons) (e : Button) (b : BtnState) :
    (s.set e b).btns e = b := by
  simp [set]

@[simp] theorem set_btns_of_ne (s : Buttons) {e o : Button} (other : o ≠ e) (b : BtnState) :
    (s.set e b).btns o = s.btns o := by
  simp [set, other]

/-- Pass 1 on one button, with the event if it returns one. -/
def debounce (c : Combo) (e : Button) (b : BtnState) (raw : Bool) (now : U32) :
    BtnState × Option Button :=
  let b := (b.sample raw now).arm now
  if b.debouncedPressed now then
    if b.stable && b.armed then
      if c.isComboBtn e then ({ b.press now with pendingShort := true }, none)
      else if e = .select then (b.press now, none)
      else (b.press now, some e)
    else (b, none)
  else (b.release, none)

/-- Pass 1, left at the first event. -/
def pass1 (pins : Nat → Bool) (now : U32) : List Button → Buttons → Buttons × Option Button
  | [], s => (s, none)
  | e :: rest, s =>
    let r := debounce s.combo e (s.btns e) (pins e.gpio) now
    match r.2 with
    | some event => (s.set e r.1, some event)
    | none => pass1 pins now rest (s.set e r.1)

/-- Pass 2, the combo. -/
def pass2 (s : Buttons) (now : U32) : Buttons :=
  match s.combo.a, s.combo.b with
  | some a, some b =>
    if s.combo.holdMs > 0 then
      if (s.btns a).debouncedPressed now && (s.btns b).debouncedPressed now then
        let s := { s with combo := s.combo.bothDown now }
        let s := s.set a (s.btns a).clearShort
        s.set b (s.btns b).clearShort
      else { s with combo := { s.combo with intentActive := false } }
    else s
  | _, _ => s

/-- Pass 3, the first deferred short that is due. -/
def pass3 (s : Buttons) (now : U32) : Option Button :=
  Button.all.find? fun e => (s.btns e).shortDue now

/-- Pass 4, the hold of SELECT. -/
def pass4 (s : Buttons) (now : U32) : Option Button :=
  Button.all.find? fun e => decide (e = .select) && (s.btns e).holdDue now

/-- `buttons_poll` -/
def poll (s : Buttons) (pins : Nat → Bool) (now : U32) : Buttons × Option Button :=
  match pass1 pins now Button.all s with
  | (s, some event) => (s, some event)
  | (s, none) =>
    let s := s.pass2 now
    match s.pass3 now with
    | some e => (s.set e (s.btns e).clearShort, some e)
    | none =>
      match s.pass4 now with
      | some e => (s.set e { s.btns e with holdFired := true }, some e)
      | none => (s, none)

end Buttons

end MsxPulse.Firmware
