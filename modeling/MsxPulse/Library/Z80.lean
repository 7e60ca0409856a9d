import Mathlib.Data.BitVec
import MsxPulse.Library.Machine

/-!
# The Z80

The registers, the documented flags, and the instructions of programs that move bytes
between registers, one memory and the ports. What an arithmetic or exchange instruction
returns is a parameter of the step, one record for each address, so that a program can be
run on an ALU that does not work as documented. Memory and ports are a parameter too.
-/

namespace MsxPulse.Library.Z80

abbrev Byte := BitVec 8

abbrev Word := BitVec 16

/-! ## Pairs of bytes -/

def hi (w : Word) : Byte := w.extractLsb' 8 8

def lo (w : Word) : Byte := w.extractLsb' 0 8

def join (high low : Byte) : Word := high ++ low

@[simp] theorem hi_join (high low : Byte) : hi (join high low) = high := by
  apply BitVec.eq_of_getLsbD_eq
  intro i small
  have above : ¬8 + i < 8 := by omega
  simp only [hi, join, BitVec.getLsbD_extractLsb', BitVec.getLsbD_append, small, above, decide_true,
    Bool.true_and, if_false, Nat.add_sub_cancel_left]

@[simp] theorem join_hi_lo (w : Word) : join (hi w) (lo w) = w := by
  apply BitVec.eq_of_getLsbD_eq
  intro i small
  simp only [join, hi, lo, BitVec.getLsbD_append, BitVec.getLsbD_extractLsb', Nat.zero_add]
  split
  next low => simp [low]
  next high =>
    have inside : i - 8 < 8 := by omega
    have whole : 8 + (i - 8) = i := by omega
    simp [inside, whole]

/-- The idiom that tests a pair for zero. -/
theorem hi_or_lo_eq_zero (w : Word) : hi w ||| lo w = 0#8 ↔ w = 0#16 := by
  constructor
  · intro none
    obtain ⟨high, low⟩ := BitVec.or_eq_zero_iff.mp none
    rw [← join_hi_lo w, high, low]
    rfl
  · rintro rfl
    rfl

/-! ## Registers -/

/-- The documented bits of F; `parity` is P/V. -/
structure Flags where
  sign : Bool
  zero : Bool
  half : Bool
  parity : Bool
  subtract : Bool
  carry : Bool
  deriving DecidableEq

/-- The pair AF. -/
structure Accumulator where
  a : Byte
  f : Flags
  deriving DecidableEq

/-- The pairs that EXX exchanges. -/
structure Bank where
  bc : Word
  de : Word
  hl : Word
  deriving DecidableEq

structure Cpu where
  af : Accumulator
  bank : Bank
  shadowAf : Accumulator
  shadowBank : Bank
  sp : Word
  pc : Word
  deriving DecidableEq

inductive Reg8 where
  | a
  | b
  | c
  | d
  | e
  | h
  | l
  deriving DecidableEq

inductive Reg16 where
  | bc
  | de
  | hl
  deriving DecidableEq

namespace Cpu

def get (s : Cpu) : Reg8 → Byte
  | .a => s.af.a
  | .b => hi s.bank.bc
  | .c => lo s.bank.bc
  | .d => hi s.bank.de
  | .e => lo s.bank.de
  | .h => hi s.bank.hl
  | .l => lo s.bank.hl

def set (s : Cpu) (v : Byte) : Reg8 → Cpu
  | .a => { s with af.a := v }
  | .b => { s with bank.bc := join v (lo s.bank.bc) }
  | .c => { s with bank.bc := join (hi s.bank.bc) v }
  | .d => { s with bank.de := join v (lo s.bank.de) }
  | .e => { s with bank.de := join (hi s.bank.de) v }
  | .h => { s with bank.hl := join v (lo s.bank.hl) }
  | .l => { s with bank.hl := join (hi s.bank.hl) v }

def get16 (s : Cpu) : Reg16 → Word
  | .bc => s.bank.bc
  | .de => s.bank.de
  | .hl => s.bank.hl

def set16 (s : Cpu) (v : Word) : Reg16 → Cpu
  | .bc => { s with bank.bc := v }
  | .de => { s with bank.de := v }
  | .hl => { s with bank.hl := v }

@[simp] theorem set_pc (s : Cpu) (v : Byte) (r : Reg8) : (s.set v r).pc = s.pc := by
  cases r <;> rfl

@[simp] theorem set_sp (s : Cpu) (v : Byte) (r : Reg8) : (s.set v r).sp = s.sp := by
  cases r <;> rfl

@[simp] theorem set16_pc (s : Cpu) (v : Word) (r : Reg16) : (s.set16 v r).pc = s.pc := by
  cases r <;> rfl

@[simp] theorem set16_sp (s : Cpu) (v : Word) (r : Reg16) : (s.set16 v r).sp = s.sp := by
  cases r <;> rfl

end Cpu

/-! ## Results -/

/-- What the arithmetic and exchange instructions return. -/
structure Alu where
  add : Byte → Byte → Accumulator
  sub : Byte → Byte → Accumulator
  and : Byte → Byte → Accumulator
  or : Byte → Byte → Accumulator
  xor : Byte → Byte → Accumulator
  cpl : Accumulator → Accumulator
  rlca : Accumulator → Accumulator
  rla : Accumulator → Accumulator
  inc : Word → Flags → Word × Flags
  dec : Word → Flags → Word × Flags
  exAf : Accumulator → Accumulator → Accumulator × Accumulator
  exx : Bank → Bank → Bank × Bank

/-- An even number of ones. -/
def evenParity (v : Byte) : Bool :=
  (List.range 8).foldl (fun even i => even ^^ v.getLsbD i) true

def addFlags (a v : Byte) : Flags where
  sign := (a + v).msb
  zero := a + v == 0#8
  half := decide ((a &&& 0x0F#8).toNat + (v &&& 0x0F#8).toNat ≥ 16)
  parity := a.saddOverflow v
  subtract := false
  carry := a.uaddOverflow v

/-- The flags of SUB and CP. -/
def subFlags (a v : Byte) : Flags where
  sign := (a - v).msb
  zero := a - v == 0#8
  half := decide (a &&& 0x0F#8 < v &&& 0x0F#8)
  parity := a.ssubOverflow v
  subtract := true
  carry := a.usubOverflow v

def logicFlags (result : Byte) (half : Bool) : Flags where
  sign := result.msb
  zero := result == 0#8
  half := half
  parity := evenParity result
  subtract := false
  carry := false

def Alu.documented : Alu where
  add a v := ⟨a + v, addFlags a v⟩
  sub a v := ⟨a - v, subFlags a v⟩
  and a v := ⟨a &&& v, logicFlags (a &&& v) true⟩
  or a v := ⟨a ||| v, logicFlags (a ||| v) false⟩
  xor a v := ⟨a ^^^ v, logicFlags (a ^^^ v) false⟩
  cpl af := ⟨~~~af.a, { af.f with half := true, subtract := true }⟩
  rlca af := ⟨af.a.rotateLeft 1, { af.f with half := false, subtract := false, carry := af.a.msb }⟩
  rla af := ⟨af.a <<< 1 ||| BitVec.ofNat 8 af.f.carry.toNat,
    { af.f with half := false, subtract := false, carry := af.a.msb }⟩
  inc w f := (w + 1#16, f)
  dec w f := (w - 1#16, f)
  exAf af other := (other, af)
  exx bank other := (other, bank)

@[simp] theorem subFlags_zero (a v : Byte) : (subFlags a v).zero = true ↔ a = v := by
  rw [subFlags, beq_iff_eq, BitVec.sub_eq_iff_eq_add, BitVec.zero_add]

@[simp] theorem logicFlags_zero (result : Byte) (half : Bool) :
    (logicFlags result half).zero = true ↔ result = 0#8 := by
  rw [logicFlags, beq_iff_eq]

/-! ## Instructions -/

/-- Where an 8-bit operand comes from. -/
inductive Operand where
  | reg (r : Reg8)
  | imm (n : Byte)
  | atHl
  deriving DecidableEq

/-- A 16-bit constant: a number, or the address of a label. -/
inductive Value (L : Type) where
  | lit (nn : Word)
  | addr (l : L)
  deriving DecidableEq

inductive Cond where
  | nz
  | z
  | nc
  | c
  | po
  | pe
  | p
  | m
  deriving DecidableEq

def Flags.holds (f : Flags) : Cond → Bool
  | .nz => !f.zero
  | .z => f.zero
  | .nc => !f.carry
  | .c => f.carry
  | .po => !f.parity
  | .pe => f.parity
  | .p => !f.sign
  | .m => f.sign

/-- An instruction without a condition is always taken. -/
def Flags.takes (f : Flags) : Option Cond → Bool
  | none => true
  | some cond => f.holds cond

inductive Arith where
  | add
  | sub
  | and
  | or
  | xor
  | cp
  deriving DecidableEq

inductive Instr (L : Type) where
  | ld (r : Reg8) (src : Operand)
  | ldAtHl (n : Byte)
  | ld16 (rr : Reg16) (v : Value L)
  | inc (rr : Reg16)
  | dec (rr : Reg16)
  | arith (op : Arith) (src : Operand)
  | cpl
  | rlca
  | rla
  | scf
  | exAf
  | exx
  | inp (port : Byte)
  | out (port : Byte)
  | jp (c : Option Cond) (l : L)
  | jr (c : Option Cond) (l : L)
  | call (l : L)
  | ret (c : Option Cond)
  deriving DecidableEq

def Operand.size : Operand → Nat
  | .imm _ => 2
  | .reg _ | .atHl => 1

namespace Instr

variable {L : Type}

def size : Instr L → Nat
  | ld _ src | arith _ src => src.size
  | ldAtHl _ | inp _ | out _ | jr .. => 2
  | ld16 .. | jp .. | call _ => 3
  | inc _ | dec _ | cpl | rlca | rla | scf | exAf | exx | ret _ => 1

/-- The next instruction is the one that follows. -/
def straight : Instr L → Bool
  | jp .. | jr .. | call _ | ret _ => false
  | _ => true

end Instr

/-! ## Programs -/

/-- What the memory holds as code, and where the labels are. -/
structure Program (L : Type) where
  fetch : Word → Option (Instr L)
  addr : L → Word

/-- A line of a listing. -/
inductive Line (L : Type) where
  | label (l : L)
  | op (i : Instr L)
  deriving DecidableEq

namespace Program

variable {L : Type}

/-- The lines stand in memory from an address on. -/
def Placed (p : Program L) : Word → List (Line L) → Prop
  | _, [] => True
  | start, .label l :: lines => p.addr l = start ∧ p.Placed start lines
  | start, .op i :: lines =>
    p.fetch start = some i ∧ p.Placed (start + BitVec.ofNat 16 i.size) lines

instance decidablePlaced [DecidableEq L] (p : Program L) :
    ∀ (start : Word) (lines : List (Line L)), Decidable (p.Placed start lines)
  | _, [] => .isTrue trivial
  | start, .label l :: lines =>
    have := decidablePlaced p start lines
    inferInstanceAs (Decidable (p.addr l = start ∧ p.Placed start lines))
  | start, .op i :: lines =>
    have := decidablePlaced p (start + BitVec.ofNat 16 i.size) lines
    inferInstanceAs (Decidable (p.fetch start = some i ∧
      p.Placed (start + BitVec.ofNat 16 i.size) lines))

theorem Placed.left {p : Program L} {start : Word} {first second : List (Line L)}
    (h : p.Placed start (first ++ second)) : p.Placed start first := by
  induction first generalizing start with
  | nil => trivial
  | cons line first ih =>
    cases line with
    | label l => exact ⟨h.1, ih h.2⟩
    | op i => exact ⟨h.1, ih h.2⟩

/-- What stands after the first lines. -/
theorem Placed.suffix {p : Program L} {start : Word} (first second : List (Line L))
    (h : p.Placed start (first ++ second)) : ∃ later, p.Placed later second := by
  induction first generalizing start with
  | nil => exact ⟨start, h⟩
  | cons line first ih =>
    cases line with
    | label l => exact ih h.2
    | op i => exact ih h.2

/-- What stands from a label on. -/
theorem Placed.at_label {p : Program L} {start : Word} {l : L} {lines : List (Line L)}
    (h : p.Placed start (.label l :: lines)) : p.Placed (p.addr l) (.label l :: lines) := by
  rw [h.1]
  exact h

end Program

/-! ## Steps -/

/-- The memory and the ports. -/
structure Bus (Env : Type) where
  read : Env → Word → Byte
  write : Env → Word → Byte → Env
  input : Env → Byte → Byte × Env
  output : Env → Byte → Byte → Env

inductive Access where
  | read (addr : Word)
  | write (addr : Word) (v : Byte)
  | input (port : Byte)
  | output (port : Byte) (v : Byte)
  deriving DecidableEq

structure State (Env : Type) where
  cpu : Cpu
  env : Env

structure Computer (Env L : Type) where
  bus : Bus Env
  /-- What the instruction at an address returns. -/
  alu : Word → Alu
  program : Program L

namespace State

variable {Env L : Type} (s : State Env)

/-- Past the instruction. -/
def next (i : Instr L) : Cpu := { s.cpu with pc := s.cpu.pc + BitVec.ofNat 16 i.size }

/-- What the instruction reads and writes, its own bytes apart. -/
def accesses : Instr L → List Access
  | .ld _ .atHl | .arith _ .atHl => [.read s.cpu.bank.hl]
  | .ldAtHl n => [.write s.cpu.bank.hl n]
  | .inp port => [.input port]
  | .out port => [.output port s.cpu.af.a]
  | .call l => [.write (s.cpu.sp - 1#16) (hi (s.next (.call l)).pc),
      .write (s.cpu.sp - 2#16) (lo (s.next (.call l)).pc)]
  | .ret cond => if s.cpu.af.f.takes cond then [.read s.cpu.sp, .read (s.cpu.sp + 1#16)] else []
  | _ => []

end State

namespace Computer

variable {Env L : Type} (c : Computer Env L)

/-- The byte of an operand. -/
def value (s : State Env) : Operand → Byte
  | .reg r => s.cpu.get r
  | .imm n => n
  | .atHl => c.bus.read s.env s.cpu.bank.hl

def word : Value L → Word
  | .lit nn => nn
  | .addr l => c.program.addr l

/-- What an arithmetic instruction leaves in AF. CP only compares. -/
def result (s : State Env) (v : Byte) : Arith → Accumulator
  | .add => (c.alu s.cpu.pc).add s.cpu.af.a v
  | .sub => (c.alu s.cpu.pc).sub s.cpu.af.a v
  | .and => (c.alu s.cpu.pc).and s.cpu.af.a v
  | .or => (c.alu s.cpu.pc).or s.cpu.af.a v
  | .xor => (c.alu s.cpu.pc).xor s.cpu.af.a v
  | .cp => ⟨s.cpu.af.a, subFlags s.cpu.af.a v⟩

def exec (i : Instr L) (s : State Env) : State Env :=
  let alu := c.alu s.cpu.pc
  let next := s.next i
  match i with
  | .ld r src => { s with cpu := next.set (c.value s src) r }
  | .ldAtHl n => ⟨next, c.bus.write s.env s.cpu.bank.hl n⟩
  | .ld16 rr v => { s with cpu := next.set16 (c.word v) rr }
  | .inc rr =>
    let r := alu.inc (s.cpu.get16 rr) s.cpu.af.f
    { s with cpu := { next.set16 r.1 rr with af := ⟨s.cpu.af.a, r.2⟩ } }
  | .dec rr =>
    let r := alu.dec (s.cpu.get16 rr) s.cpu.af.f
    { s with cpu := { next.set16 r.1 rr with af := ⟨s.cpu.af.a, r.2⟩ } }
  | .arith op src => { s with cpu := { next with af := c.result s (c.value s src) op } }
  | .cpl => { s with cpu := { next with af := alu.cpl s.cpu.af } }
  | .rlca => { s with cpu := { next with af := alu.rlca s.cpu.af } }
  | .rla => { s with cpu := { next with af := alu.rla s.cpu.af } }
  | .scf =>
    let f := { s.cpu.af.f with half := false, subtract := false, carry := true }
    { s with cpu := { next with af := ⟨s.cpu.af.a, f⟩ } }
  | .exAf =>
    let r := alu.exAf s.cpu.af s.cpu.shadowAf
    { s with cpu := { next with af := r.1, shadowAf := r.2 } }
  | .exx =>
    let r := alu.exx s.cpu.bank s.cpu.shadowBank
    { s with cpu := { next with bank := r.1, shadowBank := r.2 } }
  | .inp port =>
    let r := c.bus.input s.env port
    ⟨{ next with af.a := r.1 }, r.2⟩
  | .out port => ⟨next, c.bus.output s.env port s.cpu.af.a⟩
  | .jp cond l | .jr cond l =>
    if s.cpu.af.f.takes cond then { s with cpu.pc := c.program.addr l } else { s with cpu := next }
  | .call l =>
    ⟨{ s.cpu with sp := s.cpu.sp - 2#16, pc := c.program.addr l },
      c.bus.write (c.bus.write s.env (s.cpu.sp - 1#16) (hi next.pc)) (s.cpu.sp - 2#16)
        (lo next.pc)⟩
  | .ret cond =>
    if s.cpu.af.f.takes cond then
      { s with cpu := { s.cpu with
          sp := s.cpu.sp + 2#16
          pc := join (c.bus.read s.env (s.cpu.sp + 1#16)) (c.bus.read s.env s.cpu.sp) } }
    else { s with cpu := next }

/-- Where no code is known, the run stays. -/
def machine : Machine (State Env) Unit Access where
  step s _ := match c.program.fetch s.cpu.pc with
    | none => (s, [])
    | some i => (c.exec i s, s.accesses i)

end Computer

end MsxPulse.Library.Z80
