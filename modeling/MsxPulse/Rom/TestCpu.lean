import MsxPulse.Rom.Listing

/-!
# TestCPU

Each instruction under test returns anything at each of its uses, while loads, compares,
jumps and returns work. The run goes through the checks until the first that does not see
what it expects, and returns there.
-/

namespace MsxPulse.Rom

open Library.Z80

/-- What an instruction under test returns at one of its uses, which runs at most once:
a byte and flags, a register pair, or what an exchange leaves in both sets. -/
structure Outcome where
  af : Accumulator
  shadowAf : Accumulator
  pair : Word
  bank : Bank
  shadowBank : Bank

def Outcome.alu (o : Outcome) : Alu where
  add _ _ := o.af
  sub _ _ := o.af
  and _ _ := o.af
  or _ _ := o.af
  xor _ _ := o.af
  cpl _ := o.af
  rlca _ := o.af
  rla _ := o.af
  inc _ _ := (o.pair, o.af.f)
  dec _ _ := (o.pair, o.af.f)
  exAf _ _ := (o.af, o.shadowAf)
  exx _ _ := (o.bank, o.shadowBank)

/-- What the twelve checks see, in their order. -/
def checks (o : Use → Outcome) : List Bool :=
  [ (o .add).af.a == 0x78#8
  , (o .subSign).af.f.sign
  , (o .subZero).af.f.zero
  , (o .and).af.f.zero
  , (o .or).af.a == 0xFF#8
  , (o .xor).af.a == 0x55#8
  , hi (o .inc).pair == 0x13#8 && (o .orLow).af.f.zero
  , (o .cpl).af.a == 0x5A#8
  , (o .rlca).af.a == 0x01#8
  , (o .rla).af.a == 0x81#8
  , (o .exAfBack).af.a == 0x42#8
  , hi (o .exxBack).bank.bc == 0x12#8 && lo (o .exxBack).bank.bc == 0x34#8 ]

/-- 0 when all the checks see what they expect, else the number of the first that does not. -/
structure Reports (seen : List Bool) (a : Byte) : Prop where
  pass : a = 0#8 ↔ ∀ b ∈ seen, b = true
  fail : ∀ before after, seen = before ++ false :: after → (∀ b ∈ before, b = true) →
    a = BitVec.ofNat 8 (before.length + 1)

/-- The ROM on a Z80 with some behaviour, at each address. -/
def cpuUnderTest {Env : Type} (rom : Rom) (bus : Bus Env) (outcome : Word → Outcome) :
    Computer Env Label :=
  ⟨bus, fun pc => (outcome pc).alu, rom.program⟩

/-- What the uses return. -/
def uses (rom : Rom) (outcome : Word → Outcome) (u : Use) : Outcome :=
  outcome (rom.program.addr (.use u))

namespace TestCpu

open Computer

variable {Env : Type} {rom : Rom} {bus : Bus Env} {outcome : Word → Outcome} {sp : Word} {env : Env}
  {u : State Env} {code : Byte} {rest : List (Line Label)}

/-- Nothing has returned yet. -/
structure Inside (sp : Word) (env : Env) (u : State Env) : Prop where
  stack : u.cpu.sp = sp
  same : u.env = env

/-- TestCPU has returned `code`. -/
structure Returned (bus : Bus Env) (sp : Word) (env : Env) (code : Byte) (t : State Env) : Prop where
  a : t.cpu.af.a = code
  popped : t.cpu.sp = sp + 2#16
  back : t.cpu.pc = join (bus.read env (sp + 1#16)) (bus.read env sp)

/-- The instruction runs before the return. -/
def May (sp : Word) (_ : Instr Label) (u : State Env) : Prop := u.cpu.sp = sp

theorem mayRun {c : Computer Env Label} {lines : List (Line Label)} (block : straight lines = true)
    (inside : u.cpu.sp = sp) : c.MayRun (May sp) lines u := by
  induction lines generalizing u with
  | nil => trivial
  | cons line lines ih =>
    cases line with
    | label l => exact ih block inside
    | op i =>
      obtain ⟨here, block⟩ := (Bool.and_eq_true _ _).mp block
      exact ⟨inside, ih block ((exec_sp here u).trans inside)⟩

theorem reaches_ret {cond : Option Cond} (inside : Inside sp env u)
    (placed : rom.program.Placed u.cpu.pc (.op (.ret cond) :: rest)) :
    ∃ t, (cpuUnderTest rom bus outcome).machine.Reaches
        ((cpuUnderTest rom bus outcome).Runs (May sp)) u t ∧
      (u.cpu.af.f.takes cond = true ∧ Returned bus sp env u.cpu.af.a t ∨
        u.cpu.af.f.takes cond = false ∧ rom.program.Placed t.cpu.pc rest ∧ Inside sp env t ∧
          t.cpu.bank = u.cpu.bank) := by
  have may_run : May sp (.ret cond) u := inside.stack
  have step := reaches_step (c := cpuUnderTest rom bus outcome) placed.1 may_run (.refl _)
  refine ⟨_, step, ?_⟩
  cases taken : u.cpu.af.f.takes cond with
  | true =>
    refine .inl ⟨rfl, ?_⟩
    simp only [exec, taken, if_true]
    refine ⟨rfl, by rw [← inside.stack], ?_⟩
    rw [← inside.stack, ← inside.same]
    rfl
  | false =>
    refine .inr ⟨rfl, ?_⟩
    simp only [exec, taken, Bool.false_eq_true, if_false]
    exact ⟨placed.2, ⟨inside.stack, inside.same⟩, rfl⟩

/-- A piece of the listing that goes on when it sees what it expects, and else returns `code`. -/
def Checks (rom : Rom) (bus : Bus Env) (outcome : Word → Outcome) (sp : Word) (env : Env)
    (lines : List (Line Label)) (sees : Bool) (code : Byte) : Prop :=
  ∀ u rest, Inside sp env u → rom.program.Placed u.cpu.pc (lines ++ rest) →
    ∃ t, (cpuUnderTest rom bus outcome).machine.Reaches
        ((cpuUnderTest rom bus outcome).Runs (May sp)) u t ∧
      (sees = true ∧ rom.program.Placed t.cpu.pc rest ∧ Inside sp env t ∨
        sees = false ∧ Returned bus sp env code t)

theorem subFlags_zero_eq (a v : Byte) : (subFlags a v).zero = (a == v) := by
  rw [Bool.eq_iff_iff, subFlags_zero, beq_iff_eq]

/-- A check that ends with RET NZ, after a block that leaves the code in A. -/
theorem reaches_check {lines : List (Line Label)} {sees : Bool}
    (split : lines = lines.dropLast ++ [.op (.ret (some .nz))])
    (block : straight lines.dropLast = true) (inside : Inside sp env u)
    (placed : rom.program.Placed u.cpu.pc (lines ++ rest))
    (after : ((cpuUnderTest rom bus outcome).run lines.dropLast u).env = u.env ∧
      ((cpuUnderTest rom bus outcome).run lines.dropLast u).cpu.af.a = code ∧
      ((cpuUnderTest rom bus outcome).run lines.dropLast u).cpu.af.f.zero = sees) :
    ∃ t, (cpuUnderTest rom bus outcome).machine.Reaches
        ((cpuUnderTest rom bus outcome).Runs (May sp)) u t ∧
      (sees = true ∧ (rom.program.Placed t.cpu.pc rest ∧ Inside sp env t) ∧
          t.cpu.bank = ((cpuUnderTest rom bus outcome).run lines.dropLast u).cpu.bank ∨
        sees = false ∧ Returned bus sp env code t) := by
  obtain ⟨kept, a, zero⟩ := after
  rw [split, List.append_assoc] at placed
  obtain ⟨ran, later⟩ := reaches_block (c := cpuUnderTest rom bus outcome) lines.dropLast _ block
    placed (mayRun block inside.stack)
  have inside' : Inside sp env ((cpuUnderTest rom bus outcome).run lines.dropLast u) :=
    ⟨(run_sp block u).trans inside.stack, kept.trans inside.same⟩
  obtain ⟨t, last, outcome⟩ := reaches_ret inside' later
  refine ⟨t, ran.trans last, ?_⟩
  rw [Flags.takes, Flags.holds, zero, a] at outcome
  rcases outcome with ⟨taken, returned⟩ | ⟨taken, next, inside'', bank⟩
  · exact .inr ⟨Bool.not_eq_true' _ |>.mp taken, returned⟩
  · exact .inl ⟨Bool.not_eq_false' _ |>.mp taken, ⟨next, inside''⟩, bank⟩

theorem checks_of_block (lines : List (Line Label)) {sees : Bool}
    (split : lines = lines.dropLast ++ [.op (.ret (some .nz))])
    (block : straight lines.dropLast = true)
    (after : ∀ (u : State Env) (rest : List (Line Label)),
      rom.program.Placed u.cpu.pc (lines ++ rest) →
      ((cpuUnderTest rom bus outcome).run lines.dropLast u).env = u.env ∧
        ((cpuUnderTest rom bus outcome).run lines.dropLast u).cpu.af.a = code ∧
        ((cpuUnderTest rom bus outcome).run lines.dropLast u).cpu.af.f.zero = sees) :
    Checks rom bus outcome sp env lines sees code := by
  intro u rest inside placed
  obtain ⟨t, reached, ⟨seen, later, -⟩ | failed⟩ :=
    reaches_check split block inside placed (after u rest placed)
  · exact ⟨t, reached, .inl ⟨seen, later⟩⟩
  · exact ⟨t, reached, .inr failed⟩

/-! ## The checks -/

/-- The instruction leaves the outcome of its address in AF, and all else alone. -/
def SetsAf (rom : Rom) (bus : Bus Env) (outcome : Word → Outcome) (i : Instr Label) : Prop :=
  ∀ u, (cpuUnderTest rom bus outcome).exec i u =
    { u with cpu := { u.next i with af := (outcome u.cpu.pc).af } }

section Checks

variable (rom bus outcome sp env)

theorem checks_expect (operand value code : Byte) (use : Use) {i : Instr Label}
    (sets : SetsAf rom bus outcome i) (flat : i.straight = true) :
    Checks rom bus outcome sp env (onByte operand use i ++ expect value code)
      ((uses rom outcome use).af.a == value) code := by
  refine checks_of_block _ rfl ?_ fun u rest placed => ?_
  · show (i.straight && true) = true
    rw [flat]
    rfl
  · have here : rom.program.addr (.use use) = u.cpu.pc + 2#16 := placed.2.1
    have ran : (cpuUnderTest rom bus outcome).run
          (onByte operand use i ++ expect value code).dropLast u =
        (cpuUnderTest rom bus outcome).run [.op (.arith .cp (.imm value)), .op (.ld .a (.imm code))]
          ((cpuUnderTest rom bus outcome).exec i
            ((cpuUnderTest rom bus outcome).exec (.ld .a (.imm operand)) u)) := rfl
    rw [ran, sets, ← subFlags_zero_eq, uses, here]
    exact ⟨rfl, rfl, rfl⟩

theorem checks_verdict (operand code : Byte) (use : Use) {i : Instr Label}
    (sets : SetsAf rom bus outcome i) (flat : i.straight = true) :
    Checks rom bus outcome sp env (onByte operand use i ++ verdict code)
      (uses rom outcome use).af.f.zero code := by
  refine checks_of_block _ rfl ?_ fun u rest placed => ?_
  · show (i.straight && true) = true
    rw [flat]
    rfl
  · have here : rom.program.addr (.use use) = u.cpu.pc + 2#16 := placed.2.1
    have ran : (cpuUnderTest rom bus outcome).run (onByte operand use i ++ verdict code).dropLast u =
        (cpuUnderTest rom bus outcome).run [.op (.ld .a (.imm code))]
          ((cpuUnderTest rom bus outcome).exec i
            ((cpuUnderTest rom bus outcome).exec (.ld .a (.imm operand)) u)) := rfl
    rw [ran, sets, uses, here]
    exact ⟨rfl, rfl, rfl⟩

variable {rom bus outcome sp env} in
/-- Two pieces with one code. -/
theorem Checks.both {first second : List (Line Label)} {sees sees' : Bool}
    (h : Checks rom bus outcome sp env first sees code)
    (h' : Checks rom bus outcome sp env second sees' code) :
    Checks rom bus outcome sp env (first ++ second) (sees && sees') code := by
  intro u rest inside placed
  rw [List.append_assoc] at placed
  obtain ⟨t, reached, ⟨rfl, later, inside'⟩ | ⟨rfl, returned⟩⟩ := h u _ inside placed
  · obtain ⟨v, reached', outcome⟩ := h' t rest inside' later
    exact ⟨v, reached.trans reached', outcome⟩
  · exact ⟨t, reached, .inr ⟨rfl, returned⟩⟩

theorem checks_check2 : Checks rom bus outcome sp env check2 (uses rom outcome .subSign).af.f.sign
    1#8 := by
  intro u rest inside placed
  have here : rom.program.addr (.use .subSign) = u.cpu.pc + 2#16 := placed.2.1
  obtain ⟨ran, later⟩ := reaches_block (c := cpuUnderTest rom bus outcome)
    (onByte 0x50#8 .subSign (.arith .sub (.imm 0x51#8)))
    (.op (.jp (some .p) .testCpuFail) :: rest) rfl placed (mayRun rfl inside.stack)
  have may_jump : May sp (.jp (some .p) .testCpuFail) ((cpuUnderTest rom bus outcome).run
      (onByte 0x50#8 .subSign (.arith .sub (.imm 0x51#8))) u) := inside.stack
  obtain ⟨t, jumped, kept, cpu, outcome'⟩ := reaches_jump (.inl rfl) later may_jump
  have inside' : Inside sp env t := ⟨by rw [cpu]; exact inside.stack, kept.trans inside.same⟩
  rw [Flags.takes, Flags.holds] at outcome'
  rw [uses, here]
  rcases outcome' with ⟨plus, exit⟩ | ⟨minus, next⟩
  · -- the exit is the one of the first check
    obtain ⟨_, failed⟩ := Program.Placed.suffix _ testCpuFail
      (show rom.program.Placed _ (_ ++ testCpuFail) from rom.testCpuPlaced)
    have placed' : rom.program.Placed t.cpu.pc testCpuFail := by
      rw [exit]
      exact failed.at_label
    obtain ⟨loaded, last⟩ := reaches_block (c := cpuUnderTest rom bus outcome)
      [.label .testCpuFail, .op (.ld .a (.imm 1#8))] [.op (.ret none)] rfl placed'
      (mayRun rfl inside'.stack)
    have inside'' : Inside sp env ((cpuUnderTest rom bus outcome).run
        [.label .testCpuFail, .op (.ld .a (.imm 1#8))] t) := ⟨inside'.stack, inside'.same⟩
    obtain ⟨v, popped, ⟨-, returned⟩ | ⟨never, -⟩⟩ := reaches_ret inside'' last
    · exact ⟨v, ((ran.trans jumped).trans loaded).trans popped,
        .inr ⟨Bool.not_eq_true' _ |>.mp plus, returned⟩⟩
    · cases never
  · exact ⟨t, ran.trans jumped, .inl ⟨Bool.not_eq_false' _ |>.mp minus, next, inside'⟩⟩

theorem checks_check7 : Checks rom bus outcome sp env (check7High ++ check7Low)
    (hi (uses rom outcome .inc).pair == 0x13#8 && (uses rom outcome .orLow).af.f.zero) 7#8 := by
  refine Checks.both (checks_of_block check7High rfl rfl fun u rest placed => ?_)
    (checks_of_block check7Low rfl rfl fun u rest placed => ?_)
  · have here : rom.program.addr (.use .inc) = u.cpu.pc + 3#16 := placed.2.1
    rw [← subFlags_zero_eq, uses, here]
    exact ⟨rfl, rfl, rfl⟩
  · have here : rom.program.addr (.use .orLow) = u.cpu.pc + 1#16 := placed.2.1
    rw [uses, here]
    exact ⟨rfl, rfl, rfl⟩

theorem checks_check10 : Checks rom bus outcome sp env check10
    ((uses rom outcome .rla).af.a == 0x81#8) 10#8 :=
  checks_of_block check10 rfl rfl fun u rest placed => by
    have here : rom.program.addr (.use .rla) = u.cpu.pc + 1#16 + 2#16 := placed.2.2.1
    rw [← subFlags_zero_eq, uses, here]
    exact ⟨rfl, rfl, rfl⟩

theorem checks_check11 : Checks rom bus outcome sp env check11
    ((uses rom outcome .exAfBack).af.a == 0x42#8) 11#8 :=
  checks_of_block check11 rfl rfl fun u rest placed => by
    have here : rom.program.addr (.use .exAfBack) = u.cpu.pc + 2#16 + 1#16 + 2#16 :=
      placed.2.2.2.2.1
    rw [← subFlags_zero_eq, uses, here]
    exact ⟨rfl, rfl, rfl⟩

/-- C is read from the bank that B has been read from. -/
theorem checks_check12 : Checks rom bus outcome sp env (check12High ++ check12Low)
    (hi (uses rom outcome .exxBack).bank.bc == 0x12#8 &&
      lo (uses rom outcome .exxBack).bank.bc == 0x34#8) 12#8 := by
  intro u rest inside placed
  rw [List.append_assoc] at placed
  have here : rom.program.addr (.use .exxBack) = u.cpu.pc + 3#16 + 1#16 + 3#16 :=
    placed.2.2.2.2.1
  have high : ((cpuUnderTest rom bus outcome).run check12High.dropLast u).cpu.af.f.zero =
      (hi (uses rom outcome .exxBack).bank.bc == 0x12#8) := by
    rw [← subFlags_zero_eq, uses, here]
    rfl
  obtain ⟨t, reached, ⟨seen, ⟨later, inside'⟩, bank⟩ | ⟨unseen, returned⟩⟩ :=
    reaches_check rfl rfl inside placed ⟨rfl, rfl, high⟩
  · have low : ((cpuUnderTest rom bus outcome).run check12Low.dropLast t).cpu.af.f.zero =
        (lo (uses rom outcome .exxBack).bank.bc == 0x34#8) := by
      have read : ((cpuUnderTest rom bus outcome).run check12Low.dropLast t).cpu.af.f.zero =
          (subFlags (lo t.cpu.bank.bc) 0x34#8).zero := rfl
      rw [read, bank, ← subFlags_zero_eq, uses, here]
      rfl
    obtain ⟨v, reached', ⟨seen', later', -⟩ | ⟨unseen', returned⟩⟩ :=
      reaches_check rfl rfl inside' later ⟨rfl, rfl, low⟩
    · exact ⟨v, reached.trans reached', .inl ⟨by rw [seen, seen']; rfl, later'⟩⟩
    · exact ⟨v, reached.trans reached', .inr ⟨by rw [seen, unseen']; rfl, returned⟩⟩
  · exact ⟨t, reached, .inr ⟨by rw [unseen]; rfl, returned⟩⟩

end Checks

/-! ## The whole test -/

/-- A check of the listing: what it sees, and what it returns when it does not. -/
structure Piece where
  lines : List (Line Label)
  sees : Bool
  code : Byte

def pieces (o : Use → Outcome) : List Piece :=
  [ ⟨check1, (o .add).af.a == 0x78#8, 1#8⟩
  , ⟨check2, (o .subSign).af.f.sign, 1#8⟩
  , ⟨check3, (o .subZero).af.f.zero, 3#8⟩
  , ⟨check4, (o .and).af.f.zero, 4#8⟩
  , ⟨check5, (o .or).af.a == 0xFF#8, 5#8⟩
  , ⟨check6, (o .xor).af.a == 0x55#8, 6#8⟩
  , ⟨check7High ++ check7Low, hi (o .inc).pair == 0x13#8 && (o .orLow).af.f.zero, 7#8⟩
  , ⟨check8, (o .cpl).af.a == 0x5A#8, 8#8⟩
  , ⟨check9, (o .rlca).af.a == 0x01#8, 9#8⟩
  , ⟨check10, (o .rla).af.a == 0x81#8, 10#8⟩
  , ⟨check11, (o .exAfBack).af.a == 0x42#8, 11#8⟩
  , ⟨check12High ++ check12Low,
      hi (o .exxBack).bank.bc == 0x12#8 && lo (o .exxBack).bank.bc == 0x34#8, 12#8⟩ ]

theorem pieces_sees (o : Use → Outcome) : (pieces o).map (·.sees) = checks o := rfl

theorem testCpu_eq (o : Use → Outcome) : testCpu =
    .label .testCpu :: ((pieces o).flatMap (·.lines) ++ (testCpuPass ++ testCpuFail)) := by
  simp only [testCpu, pieces, List.flatMap_cons, List.flatMap_nil, List.append_nil,
    List.append_assoc, List.cons_append]

theorem pieces_check (rom : Rom) (bus : Bus Env) (outcome : Word → Outcome) (sp : Word) (env : Env) :
    ∀ p ∈ pieces (uses rom outcome), Checks rom bus outcome sp env p.lines p.sees p.code := by
  simp only [pieces, List.forall_mem_cons, List.not_mem_nil, false_implies, implies_true, and_true]
  exact
    ⟨checks_expect rom bus outcome sp env 0x3C#8 0x78#8 1#8 .add (fun _ => rfl) rfl,
      checks_check2 rom bus outcome sp env,
      checks_verdict rom bus outcome sp env 0x42#8 3#8 .subZero (fun _ => rfl) rfl,
      checks_verdict rom bus outcome sp env 0xF0#8 4#8 .and (fun _ => rfl) rfl,
      checks_expect rom bus outcome sp env 0xF0#8 0xFF#8 5#8 .or (fun _ => rfl) rfl,
      checks_expect rom bus outcome sp env 0xFF#8 0x55#8 6#8 .xor (fun _ => rfl) rfl,
      checks_check7 rom bus outcome sp env,
      checks_expect rom bus outcome sp env 0xA5#8 0x5A#8 8#8 .cpl (fun _ => rfl) rfl,
      checks_expect rom bus outcome sp env 0x80#8 0x01#8 9#8 .rlca (fun _ => rfl) rfl,
      checks_check10 rom bus outcome sp env,
      checks_check11 rom bus outcome sp env,
      checks_check12 rom bus outcome sp env⟩

/-- A row of checks goes on to its end, or returns at the first that does not see. -/
theorem reaches_pieces {list : List Piece}
    (each : ∀ p ∈ list, Checks rom bus outcome sp env p.lines p.sees p.code)
    (inside : Inside sp env u)
    (placed : rom.program.Placed u.cpu.pc (list.flatMap (·.lines) ++ rest)) :
    ∃ t, (cpuUnderTest rom bus outcome).machine.Reaches
        ((cpuUnderTest rom bus outcome).Runs (May sp)) u t ∧
      ((∀ p ∈ list, p.sees = true) ∧ rom.program.Placed t.cpu.pc rest ∧ Inside sp env t ∨
        ∃ before p after, list = before ++ p :: after ∧ (∀ q ∈ before, q.sees = true) ∧
          p.sees = false ∧ Returned bus sp env p.code t) := by
  induction list generalizing u with
  | nil => exact ⟨u, .refl u, .inl ⟨by simp, placed, inside⟩⟩
  | cons p list ih =>
    rw [List.flatMap_cons, List.append_assoc] at placed
    obtain ⟨t, reached, ⟨seen, later, inside'⟩ | ⟨unseen, returned⟩⟩ :=
      each p List.mem_cons_self u _ inside placed
    · obtain ⟨v, reached', outcome'⟩ :=
        ih (fun q mem => each q (List.mem_cons_of_mem p mem)) inside' later
      refine ⟨v, reached.trans reached', ?_⟩
      rcases outcome' with ⟨all, last⟩ | ⟨before, q, after, rfl, earlier, unseen, returned⟩
      · exact .inl ⟨List.forall_mem_cons.mpr ⟨seen, all⟩, last⟩
      · exact .inr ⟨p :: before, q, after, rfl, List.forall_mem_cons.mpr ⟨seen, earlier⟩, unseen,
          returned⟩
    · exact ⟨t, reached, .inr ⟨[], p, list, rfl, by simp, unseen, returned⟩⟩

/-- The run from `s` on comes to `t` by the first return. -/
def Returns (rom : Rom) (bus : Bus Env) (outcome : Word → Outcome) (s t : State Env) : Prop :=
  (cpuUnderTest rom bus outcome).machine.Arrives (fun u => u.cpu.sp ≠ s.cpu.sp) (fun _ => True) s t ∧
    t.cpu.sp = s.cpu.sp + 2#16 ∧
    t.cpu.pc = join (bus.read s.env (s.cpu.sp + 1#16)) (bus.read s.env s.cpu.sp)

/-- At the label. -/
def enter (rom : Rom) (s : State Env) : State Env :=
  { s with cpu.pc := rom.program.addr .testCpu }

/-- What is left in A: the result of the last XOR, or the code of the first check that does
not see what it expects. -/
def Leaves (o : Use → Outcome) (a : Byte) : Prop :=
  (∀ b ∈ checks o, b = true) ∧ a = (o .xorA).af.a ∨
    ∃ before p after, pieces o = before ++ p :: after ∧ (∀ q ∈ before, q.sees = true) ∧
      p.sees = false ∧ a = p.code

theorem returns (rom : Rom) (bus : Bus Env) (outcome : Word → Outcome) (s : State Env) :
    ∃ t, Returns rom bus outcome (enter rom s) t ∧ Leaves (uses rom outcome) t.cpu.af.a := by
  have placed := rom.testCpuPlaced
  rw [testCpu_eq (uses rom outcome)] at placed
  have inside : Inside s.cpu.sp s.env (enter rom s) := ⟨rfl, rfl⟩
  obtain ⟨t, reached, outcome'⟩ := reaches_pieces (pieces_check rom bus outcome s.cpu.sp s.env) inside
    placed.2
  have ends {t : State Env} {code : Byte} (h : Returned bus s.cpu.sp s.env code t)
      (reached : (cpuUnderTest rom bus outcome).machine.Reaches
        ((cpuUnderTest rom bus outcome).Runs (May s.cpu.sp)) (enter rom s) t) :
      Returns rom bus outcome (enter rom s) t := by
    refine ⟨⟨reached.mono ?_, ?_⟩, h.popped, h.back⟩
    · rintro u ⟨i, -, same⟩
      exact ⟨fun other => other same, trivial⟩
    · show t.cpu.sp ≠ s.cpu.sp
      rw [h.popped]
      bv_omega
  rcases outcome' with ⟨all, last, inside'⟩ | ⟨before, p, after, split, earlier, unseen, returned⟩
  · have here : rom.program.addr (.use .xorA) = t.cpu.pc := last.1
    obtain ⟨cleared, ret⟩ := reaches_block (c := cpuUnderTest rom bus outcome)
      [.label (.use .xorA), .op (.arith .xor (.reg .a))] (.op (.ret none) :: testCpuFail) rfl last
      (mayRun rfl inside'.stack)
    have inside'' : Inside s.cpu.sp s.env ((cpuUnderTest rom bus outcome).run
        [.label (.use .xorA), .op (.arith .xor (.reg .a))] t) := ⟨inside'.stack, inside'.same⟩
    obtain ⟨v, popped, ⟨-, returned⟩ | ⟨never, -⟩⟩ := reaches_ret inside'' ret
    · refine ⟨v, ends returned ((reached.trans cleared).trans popped), .inl ⟨?_, ?_⟩⟩
      · rw [← pieces_sees]
        exact List.forall_mem_map.mpr all
      · rw [returned.a, uses, here]
        rfl
    · cases never
  · exact ⟨t, ends returned reached,
      .inr ⟨before, p, after, split, earlier, unseen, returned.a⟩⟩

/-! ## The number that is returned -/

/-- What comes before the first check that does not see. -/
theorem takeWhile_of_split {seen before after : List Bool} (split : seen = before ++ false :: after)
    (earlier : ∀ b ∈ before, b = true) : seen.takeWhile (fun b => b) = before := by
  rw [split, List.takeWhile_append_of_pos earlier]
  simp

/-- Every check has its own number for its code, but for the second. -/
theorem code_of_split {o : Use → Outcome} {before after : List Piece} {p : Piece}
    (split : pieces o = before ++ p :: after) : before.length < 12 ∧
      p.code = if before.length = 1 then 1#8 else BitVec.ofNat 8 (before.length + 1) := by
  have small : before.length < 12 := by
    have whole := congrArg List.length split
    rw [List.length_append, List.length_cons] at whole
    have twelve : (pieces o).length = 12 := rfl
    omega
  have codes : (pieces o).map (·.code) =
      [1#8, 1#8, 3#8, 4#8, 5#8, 6#8, 7#8, 8#8, 9#8, 10#8, 11#8, 12#8] := rfl
  have code := congrArg (·[before.length]?) (codes.symm.trans (congrArg (List.map (·.code)) split))
  simp only [List.map_append, List.map_cons, List.getElem?_append_right, List.length_map,
    Nat.le_refl, Nat.sub_self, List.getElem?_cons_zero] at code
  have table : ∀ n < 12,
      [1#8, 1#8, 3#8, 4#8, 5#8, 6#8, 7#8, 8#8, 9#8, 10#8, 11#8, 12#8][n]? =
        some (if n = 1 then 1#8 else BitVec.ofNat 8 (n + 1)) := by decide
  exact ⟨small, Option.some.inj (code.symm.trans (table _ small))⟩

/-- The run leaves by the second check. -/
def LeavesBySecond (o : Use → Outcome) : Prop :=
  (o .add).af.a = 0x78#8 ∧ (o .subSign).af.f.sign = false

theorem leavesBySecond_iff {o : Use → Outcome} {before after : List Bool}
    (split : checks o = before ++ false :: after) (earlier : ∀ b ∈ before, b = true) :
    LeavesBySecond o ↔ before.length = 1 := by
  constructor
  · rintro ⟨sum, plus⟩
    have second : checks o = [true] ++ false :: (checks o).drop 2 := by
      simp [checks, sum, plus]
    rw [← takeWhile_of_split split earlier, takeWhile_of_split second (by simp)]
    rfl
  · intro one
    obtain ⟨b, rfl⟩ := List.length_eq_one_iff.mp one
    obtain ⟨first, rest⟩ := List.cons.inj split
    rw [earlier b List.mem_cons_self] at first
    exact ⟨beq_iff_eq.mp first, (List.cons.inj rest).1⟩

theorem Leaves.reports_iff {o : Use → Outcome} {a : Byte} (left : Leaves o a) :
    Reports (checks o) a ↔ ¬LeavesBySecond o ∧
      ((∀ b ∈ checks o, b = true) → (o .xorA).af.a = 0#8) := by
  rcases left with ⟨all, a⟩ | ⟨before, p, after, split, earlier, unseen, a⟩
  · have minus : (o .subSign).af.f.sign = true := all _ (by simp [checks])
    rw [a]
    constructor
    · intro report
      refine ⟨fun wrong => ?_, fun _ => report.pass.mpr all⟩
      rw [LeavesBySecond, minus] at wrong
      cases wrong.2
    · rintro ⟨-, clears⟩
      refine ⟨iff_of_true (clears all) all, fun before after split _ => ?_⟩
      have never := all false (by rw [split]; simp)
      cases never
  · have seen : checks o = before.map (·.sees) ++ false :: after.map (·.sees) := by
      rw [← pieces_sees, split, List.map_append, List.map_cons, unseen]
    have seen_earlier : ∀ b ∈ before.map (·.sees), b = true := List.forall_mem_map.mpr earlier
    have some_unseen : ¬∀ b ∈ checks o, b = true := fun all => by
      have never := all false (by rw [seen]; simp)
      cases never
    have leaves := leavesBySecond_iff seen seen_earlier
    rw [List.length_map] at leaves
    obtain ⟨small, code⟩ := code_of_split split
    rw [a, code, leaves]
    by_cases second : before.length = 1
    · rw [if_pos second]
      refine iff_of_false (fun report => ?_) (fun both => both.1 second)
      have two := report.fail _ _ seen seen_earlier
      rw [List.length_map, second] at two
      exact absurd two (by decide)
    · rw [if_neg second]
      refine iff_of_true ⟨iff_of_false ?_ some_unseen, ?_⟩
        ⟨second, fun all => absurd all some_unseen⟩
      · rw [← BitVec.toNat_inj, BitVec.toNat_ofNat, BitVec.toNat_ofNat]
        omega
      · intro before' after' seen' earlier'
        have same := (takeWhile_of_split seen seen_earlier).symm.trans
          (takeWhile_of_split seen' earlier')
        rw [← same, List.length_map]

/-- TestCPU returns, and what it returns is right if and only if the run does not leave by
the second check, and the last XOR clears A if it is reached. -/
theorem returns_report_iff (rom : Rom) (bus : Bus Env) (outcome : Word → Outcome) (s : State Env) :
    ∃ t, Returns rom bus outcome (enter rom s) t ∧
      (Reports (checks (uses rom outcome)) t.cpu.af.a ↔
        ¬LeavesBySecond (uses rom outcome) ∧
          ((∀ b ∈ checks (uses rom outcome), b = true) →
            (uses rom outcome .xorA).af.a = 0#8)) := by
  obtain ⟨t, ends, left⟩ := returns rom bus outcome s
  exact ⟨t, ends, left.reports_iff⟩

/-- ADD works, and SUB leaves the sign flag clear. -/
def noSign (rom : Rom) (pc : Word) : Outcome where
  af :=
    if pc = rom.program.addr (.use .add) then ⟨0x78#8, addFlags 0x3C#8 0x3C#8⟩
    else ⟨0xFF#8, { subFlags 0x50#8 0x51#8 with sign := false }⟩
  shadowAf := ⟨0#8, subFlags 0#8 0#8⟩
  pair := 0x1300#16
  bank := ⟨0x1234#16, 0#16, 0#16⟩
  shadowBank := ⟨0xABCD#16, 0#16, 0#16⟩

theorem noSign_misreported : ¬∀ (rom : Rom) (bus : Bus Unit) (outcome : Word → Outcome)
    (s : State Unit), ∃ t, Returns rom bus outcome (enter rom s) t ∧
      Reports (checks (uses rom outcome)) t.cpu.af.a := by
  intro right
  let quiet : Bus Unit := ⟨fun _ _ => 0#8, fun _ _ _ => (), fun _ _ => (0#8, ()), fun _ _ _ => ()⟩
  let s : State Unit := ⟨⟨⟨0#8, subFlags 0#8 0#8⟩, ⟨0#16, 0#16, 0#16⟩, ⟨0#8, subFlags 0#8 0#8⟩,
    ⟨0#16, 0#16, 0#16⟩, 0xFFFD#16, 0#16⟩, ()⟩
  obtain ⟨t, ends, report⟩ := right Rom.image quiet (noSign Rom.image) s
  obtain ⟨t', ends', left⟩ := returns Rom.image quiet (noSign Rom.image) s
  rw [ends.1.unique ends'.1, left.reports_iff] at report
  have apart : Rom.image.program.addr (.use .subSign) ≠ Rom.image.program.addr (.use .add) := by
    decide +kernel
  refine report.1 ⟨?_, ?_⟩
  · rw [uses, noSign, if_pos rfl]
  · rw [uses, noSign, if_neg apart]

end TestCpu

end MsxPulse.Rom
