import MsxPulse.Library.Reach
import MsxPulse.Library.Z80

/-!
# Running a listing

A run is followed line by line through the listings that stand in memory, wherever the
assembler has put them: a block of instructions without jumps is run at once, a jump leads
to the listing that stands at its label.
-/

namespace MsxPulse.Library.Z80

variable {Env L : Type}

/-- The lines have no jumps. -/
def straight : List (Line L) → Bool
  | [] => true
  | .label _ :: lines => straight lines
  | .op i :: lines => i.straight && straight lines

namespace Computer

variable (c : Computer Env L)

/-- The instruction that runs next is known, and may run. -/
def Runs (may : Instr L → State Env → Prop) (s : State Env) : Prop :=
  ∃ i, c.program.fetch s.cpu.pc = some i ∧ may i s

/-- The state after a block. -/
def run : List (Line L) → State Env → State Env
  | [], s => s
  | .label _ :: lines, s => run lines s
  | .op i :: lines, s => run lines (c.exec i s)

/-- Every instruction of a block may run. -/
def MayRun (may : Instr L → State Env → Prop) : List (Line L) → State Env → Prop
  | [], _ => True
  | .label _ :: lines, s => MayRun may lines s
  | .op i :: lines, s => may i s ∧ MayRun may lines (c.exec i s)

variable {c}

theorem exec_pc {i : Instr L} (straight : i.straight = true) (s : State Env) :
    (c.exec i s).cpu.pc = s.cpu.pc + BitVec.ofNat 16 i.size := by
  cases i <;> simp_all [Instr.straight, exec, State.next]

theorem exec_sp {i : Instr L} (straight : i.straight = true) (s : State Env) :
    (c.exec i s).cpu.sp = s.cpu.sp := by
  cases i <;> simp_all [Instr.straight, exec, State.next]

theorem run_sp {lines : List (Line L)} (block : straight lines = true) (s : State Env) :
    (c.run lines s).cpu.sp = s.cpu.sp := by
  induction lines generalizing s with
  | nil => rfl
  | cons line lines ih =>
    cases line with
    | label l => exact ih block s
    | op i =>
      obtain ⟨here, block⟩ := (Bool.and_eq_true _ _).mp block
      exact (ih block _).trans (exec_sp here s)

theorem machine_step {s : State Env} {i : Instr L} (fetched : c.program.fetch s.cpu.pc = some i) :
    (c.machine.step s ()).1 = c.exec i s := by
  simp only [machine, fetched]

section Rules

variable {may : Instr L → State Env → Prop} {s t : State Env} {rest : List (Line L)}
  {l : L} {i : Instr L}

theorem reaches_step (fetched : c.program.fetch s.cpu.pc = some i) (may_run : may i s)
    (rest : c.machine.Reaches (c.Runs may) (c.exec i s) t) :
    c.machine.Reaches (c.Runs may) s t := by
  refine .step ⟨i, fetched, may_run⟩ ?_
  rw [machine_step fetched]
  exact rest

/-- A block runs to its end, and what follows it stands there. -/
theorem reaches_block (lines rest : List (Line L)) (block : straight lines = true)
    (placed : c.program.Placed s.cpu.pc (lines ++ rest)) (may_run : c.MayRun may lines s) :
    c.machine.Reaches (c.Runs may) s (c.run lines s) ∧
      c.program.Placed (c.run lines s).cpu.pc rest := by
  induction lines generalizing s with
  | nil => exact ⟨.refl s, placed⟩
  | cons line lines ih =>
    cases line with
    | label l => exact ih block placed.2 may_run
    | op i =>
      obtain ⟨here, block⟩ := (Bool.and_eq_true _ _).mp block
      have pc := exec_pc (c := c) here s
      obtain ⟨reached, later⟩ := ih block (by rw [pc]; exact placed.2) may_run.2
      exact ⟨reaches_step placed.1 may_run.1 reached, later⟩

/-- Where a jump with a condition leads. -/
theorem reaches_jump {cond : Option Cond} (jump : i = .jp cond l ∨ i = .jr cond l)
    (placed : c.program.Placed s.cpu.pc (.op i :: rest)) (may_run : may i s) :
    ∃ t, c.machine.Reaches (c.Runs may) s t ∧ t.env = s.env ∧ t.cpu = { s.cpu with pc := t.cpu.pc } ∧
      (s.cpu.af.f.takes cond = true ∧ t.cpu.pc = c.program.addr l ∨
        s.cpu.af.f.takes cond = false ∧ c.program.Placed t.cpu.pc rest) := by
  refine ⟨c.exec i s, reaches_step placed.1 may_run (.refl _), ?_⟩
  cases taken : s.cpu.af.f.takes cond with
  | true => rcases jump with rfl | rfl <;> simp [exec, taken]
  | false =>
    rcases jump with rfl | rfl <;> simpa [exec, taken, State.next] using placed.2

end Rules

end Computer

end MsxPulse.Library.Z80
