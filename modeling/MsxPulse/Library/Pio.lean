import Mathlib.Logic.Basic

/-!
# PIO state machines

The programmable I/O of the RP2 chips, one clock at a time: a state machine runs
one instruction per clock unless it is stalled, delayed or disabled, and it talks
to the rest of the chip through two FIFOs and its output pins. Input pins are a
snapshot of all GPIO levels at the clock. `in` shifts left, `out` shifts right and
there is no autopull.
-/

namespace MsxPulse.Library.Pio

abbrev Word := BitVec 32

inductive InSource where
  | pins
  | x
  deriving DecidableEq

inductive OutDest where
  | pins
  | pindirs
  deriving DecidableEq

inductive MovDest where
  | x
  | osr
  deriving DecidableEq

inductive MovSource where
  | osr
  | null
  | notNull
  deriving DecidableEq

inductive Op where
  | jmpPin (target : Nat)
  | wait (level : Bool) (gpio : Nat)
  | input (source : InSource) (bits : Nat)
  | output (dest : OutDest) (bits : Nat)
  | pullBlock
  | mov (dest : MovDest) (source : MovSource)
  | setPins (value : Word)
  | nop
  deriving DecidableEq

structure Instr where
  op : Op
  side : Option Bool
  delay : Nat
  deriving DecidableEq

/-- A program with the pin mapping and the shift configuration of its state machine. -/
structure Program where
  code : List Instr
  wrapTarget : Nat
  wrap : Nat
  jmpPin : Nat
  inBase : Nat
  /-- Push at 32 bits. -/
  autopush : Bool
  outBase : Nat
  setBase : Nat
  setCount : Nat
  sideBase : Nat

/-- FIFOs hold four words. -/
def fifoDepth : Nat := 4

structure Sm where
  enabled : Bool
  pc : Nat
  delay : Nat
  x : Word
  osr : Word
  isr : Word
  isrCount : Nat
  tx : List Word
  rx : List Word
  /-- Output levels and directions, by GPIO number. -/
  level : Nat → Bool
  dir : Nat → Bool

/-- What one clock does that other parties can see. -/
inductive Effect where
  | push (word : Word)
  | pull (word : Word)
  | drive (word : Word)
  deriving DecidableEq

/-- Replace the pins `base .. base + count - 1`. -/
def writePins (old : Nat → Bool) (base count : Nat) (word : Word) : Nat → Bool := fun pin =>
  if base ≤ pin ∧ pin < base + count then word.getLsbD (pin - base) else old pin

/-- The low `bits` bits of a word. -/
def lowBits (word : Word) (bits : Nat) : Word := (word.setWidth bits).setWidth 32

namespace Program

variable (p : Program)

/-- Completing an instruction: the next address and the delay slots. -/
def advance (i : Instr) (s : Sm) : Sm :=
  { s with pc := if s.pc = p.wrap then p.wrapTarget else s.pc + 1, delay := i.delay }

def inValue (gpio : BitVec 64) (s : Sm) : InSource → Word
  | .pins => (gpio >>> p.inBase).setWidth 32
  | .x => s.x

def movValue (s : Sm) : MovSource → Word
  | .osr => s.osr
  | .null => 0#32
  | .notNull => ~~~0#32

/-- Side-set takes effect also while the instruction stalls. -/
def sideSet (i : Instr) (s : Sm) : Sm :=
  match i.side with
  | some value => { s with level := writePins s.level p.sideBase 1 (if value then 1#32 else 0#32) }
  | none => s

def exec (gpio : BitVec 64) (i : Instr) (s : Sm) : Sm × List Effect :=
  match i.op with
  | .jmpPin target =>
    if gpio.getLsbD p.jmpPin then ({ s with pc := target, delay := i.delay }, [])
    else (p.advance i s, [])
  | .wait level pin => if gpio.getLsbD pin = level then (p.advance i s, []) else (s, [])
  | .input source bits =>
    let isr := (s.isr <<< bits) ||| lowBits (p.inValue gpio s source) bits
    let count := s.isrCount + bits
    if p.autopush ∧ 32 ≤ count then
      if s.rx.length < fifoDepth then
        (p.advance i { s with isr := 0#32, isrCount := 0, rx := s.rx ++ [isr] }, [.push isr])
      else (s, [])
    else (p.advance i { s with isr := isr, isrCount := count }, [])
  | .output dest bits =>
    let value := lowBits s.osr bits
    let s' := { s with osr := s.osr >>> bits }
    match dest with
    | .pins =>
      (p.advance i { s' with level := writePins s.level p.outBase bits value }, [.drive value])
    | .pindirs => (p.advance i { s' with dir := writePins s.dir p.outBase bits value }, [])
  | .pullBlock =>
    match s.tx with
    | word :: rest => (p.advance i { s with osr := word, tx := rest }, [.pull word])
    | [] => (s, [])
  | .mov dest source =>
    match dest with
    | .x => (p.advance i { s with x := movValue s source }, [])
    | .osr => (p.advance i { s with osr := movValue s source }, [])
  | .setPins value =>
    (p.advance i { s with level := writePins s.level p.setBase p.setCount value }, [])
  | .nop => (p.advance i s, [])

/-- One clock of a state machine that runs this program. -/
def clock (gpio : BitVec 64) (s : Sm) : Sm × List Effect :=
  if s.enabled then
    if s.delay = 0 then
      match p.code[s.pc]? with
      | some i => p.exec gpio i (p.sideSet i s)
      | none => (s, [])
    else ({ s with delay := s.delay - 1 }, [])
  else (s, [])

theorem clock_disabled (gpio : BitVec 64) {s : Sm} (off : s.enabled = false) :
    p.clock gpio s = (s, []) := by
  simp [clock, off]

theorem clock_delayed (gpio : BitVec 64) {s : Sm} (on : s.enabled = true) (wait : s.delay ≠ 0) :
    p.clock gpio s = ({ s with delay := s.delay - 1 }, []) := by
  simp [clock, on, wait]

theorem clock_exec (gpio : BitVec 64) {s : Sm} (on : s.enabled = true) (ready : s.delay = 0)
    {i : Instr} (fetch : p.code[s.pc]? = some i) :
    p.clock gpio s = p.exec gpio i (p.sideSet i s) := by
  simp [clock, on, ready, fetch]

end Program

/-! ## What the processor does to a state machine -/

namespace Sm

def setEnabled (s : Sm) (on : Bool) : Sm := { s with enabled := on }

def clearFifos (s : Sm) : Sm := { s with tx := [], rx := [] }

/-- Clears the input shift register, its counter and a pending delay. -/
def restart (s : Sm) : Sm := { s with isr := 0#32, isrCount := 0, delay := 0 }

/-- An executed `jmp`. -/
def jump (s : Sm) (pc : Nat) : Sm := { s with pc := pc }

def put (s : Sm) (word : Word) : Sm :=
  if s.tx.length < fifoDepth then { s with tx := s.tx ++ [word] } else s

section Put

variable (s : Sm) (word : Word)

@[simp] theorem put_pc : (s.put word).pc = s.pc := by
  unfold put
  split <;> rfl

@[simp] theorem put_delay : (s.put word).delay = s.delay := by
  unfold put
  split <;> rfl

@[simp] theorem put_rx : (s.put word).rx = s.rx := by
  unfold put
  split <;> rfl

end Put

def setPinsWithMask (s : Sm) (values mask : BitVec 64) : Sm :=
  { s with level := fun pin => if mask.getLsbD pin then values.getLsbD pin else s.level pin }

def setConsecutivePindirs (s : Sm) (base count : Nat) (out : Bool) : Sm :=
  { s with dir := fun pin => if base ≤ pin ∧ pin < base + count then out else s.dir pin }

end Sm

theorem getLsbD_lowBits (word : Word) {bits i : Nat} (inside : i < bits) :
    (lowBits word bits).getLsbD i = word.getLsbD i := by
  by_cases fits : i < 32
  · simp [lowBits, inside, fits]
  · rw [BitVec.getLsbD_of_ge _ _ (Nat.le_of_not_lt fits),
      BitVec.getLsbD_of_ge _ _ (Nat.le_of_not_lt fits)]

section Pins

variable (old : Nat → Bool) (base count : Nat) (word : Word) (pin : Nat)

theorem writePins_inside (inside : base ≤ pin ∧ pin < base + count) :
    writePins old base count word pin = word.getLsbD (pin - base) := if_pos inside

theorem writePins_outside (outside : ¬ (base ≤ pin ∧ pin < base + count)) :
    writePins old base count word pin = old pin := if_neg outside

end Pins

end MsxPulse.Library.Pio
