import MsxPulse.Firmware.Sdk
import Mathlib.Data.List.Infix

/-!
# Pads under SIO control

What the GPIO calls do to the function select and the SIO bits of one pad. A PIO's
set and pindirs calls act on that PIO's own latches, which reach a pad only when
its function select is that PIO, and DMA calls reach no pad, so neither changes
these three.
-/

namespace MsxPulse.Firmware

structure Pad where
  func : GpioFunction
  out : Bool
  oe : Bool
  deriving DecidableEq

namespace Pad

/-- The pad drives its pin to this level, as an SIO output. -/
def Drives (p : Pad) (level : Bool) : Prop := p = ⟨.sio, level, true⟩

/-- The pad belongs to SIO and its output is disabled. -/
def Listens (p : Pad) : Prop := p.func = .sio ∧ p.oe = false

end Pad

/-- `gpio_init` makes a pin an SIO input with its output bit cleared. -/
def GpioOp.apply (op : GpioOp) (p : Pad) : Pad :=
  match op with
  | .init => ⟨.sio, false, false⟩
  | .put value => { p with out := value }
  | .setDir out => { p with oe := out }
  | .setFunction f => { p with func := f }
  | .disablePulls | .pullUp | .get => p

/-- The effect of one call on the pad of `pin`. -/
def Call.onPad (pin : Nat) (p : Pad) (c : Call) : Pad :=
  match c.call with
  | .gpio target op => if target = pin then op.apply p else p
  | _ => p

/-- The pad of `pin` after a list of calls. -/
def padAfter (pin : Nat) (p : Pad) (calls : List Call) : Pad := calls.foldl (Call.onPad pin) p

theorem padAfter_append (pin : Nat) (p : Pad) (first second : List Call) :
    padAfter pin p (first ++ second) = padAfter pin (padAfter pin p first) second := by
  simp [padAfter]

/-- A property of a pad that every call keeps holds at every point of the calls. -/
theorem padAfter_keeps {pin : Nat} (good : Pad → Prop) (allowed : Call → Prop)
    (keeps : ∀ p c, good p → allowed c → good (c.onPad pin p)) {p : Pad} (start : good p)
    {calls : List Call} (all : ∀ c ∈ calls, allowed c) : good (padAfter pin p calls) := by
  induction calls generalizing p with
  | nil => exact start
  | cons c calls ih =>
    have first : allowed c := all c (by simp)
    exact ih (keeps p c start first) fun c' member => all c' (by simp [member])

end MsxPulse.Firmware
