import MsxPulse.Rom.Listing

/-!
# What both memory tests have in common

A test writes a pattern into all its cells and verifies it, twice. It is over when the run
first comes to the label of a test that passed or to the one of a test that failed. Each of
its steps is also asked for the cells that it touches.
-/

namespace MsxPulse.Rom

open Library (StuckAt Finding Returns all_healthy_iff)
open Library.Z80

/-- The ROM in a machine whose Z80 works. -/
def computer (rom : Rom) : Computer Msx Label := ⟨Msx.bus, fun _ => .documented, rom.program⟩

/-- A memory test: its two labels, its cells and their faults, and the cells that an
instruction may touch. -/
structure MemoryTest where
  pass : Label
  fail : Label
  cells : Word → Prop
  fault : Word → StuckAt 8
  own : Instr Label → State Msx → Cell → Prop

namespace MemoryTest

variable (test : MemoryTest) (rom : Rom)

/-- The test is over. -/
def Over (s : State Msx) : Prop :=
  s.cpu.pc = rom.program.addr test.pass ∨ s.cpu.pc = rom.program.addr test.fail

/-- The instruction that runs next touches its own cells only. -/
def Keeps (s : State Msx) : Prop := ∀ i, rom.program.fetch s.cpu.pc = some i →
  ∀ a ∈ s.accesses i, ∀ cell ∈ s.env.touched a, test.own i s cell

/-- The run from `s` comes to `t` when the test is over. -/
def Ends (s t : State Msx) : Prop :=
  rom.computer.machine.Arrives (test.Over rom) (test.Keeps rom) s t

/-- The test passes if and only if no cell has a stuck bit. Else it fails with the first
pattern that some cell does not return in D, the least such cell in HL and its byte in A. -/
structure Finds (s : State Msx) : Prop where
  passes : (∃ t, test.Ends rom s t ∧ t.cpu.pc = rom.program.addr test.pass) ↔
    ∀ c, test.cells c → (test.fault c).Healthy
  fails : (¬∀ c, test.cells c → (test.fault c).Healthy) →
    ∃ t, test.Ends rom s t ∧ t.cpu.pc = rom.program.addr test.fail ∧
      Finding test.fault test.cells [0xAA#8, 0x55#8] (hi t.cpu.bank.de) t.cpu.bank.hl t.cpu.af.a

/-! ## From the run of the listing -/

/-- An instruction that is not on a line after one of the labels. -/
def May (i : Instr Label) (s : State Msx) : Prop :=
  i ≠ .ld16 .hl (.addr .strPass) ∧ i ≠ .ld .e (.reg .a) ∧
    ∀ a ∈ s.accesses i, ∀ cell ∈ s.env.touched a, test.own i s cell

/-- Where a verify loop stops with the given pattern. -/
structure Stops (pattern : Byte) (t : State Msx) : Prop where
  pc : t.cpu.pc = rom.program.addr test.fail
  expected : hi t.cpu.bank.de = pattern
  inside : test.cells t.cpu.bank.hl
  differs : (test.fault t.cpu.bank.hl).read pattern ≠ pattern
  least : ∀ c, test.cells c → c < t.cpu.bank.hl → (test.fault c).read pattern = pattern
  actual : t.cpu.af.a = (test.fault t.cpu.bank.hl).read pattern

/-- A pass of the test, from any state that `inv` holds of. -/
def Pass (inv : State Msx → Prop) (lines : List (Line Label)) (pattern : Byte) : Prop :=
  ∀ s rest, inv s → rom.program.Placed s.cpu.pc (lines ++ rest) →
    ∃ t, rom.computer.machine.Reaches (rom.computer.Runs test.May) s t ∧
      (rom.program.Placed t.cpu.pc rest ∧ inv t ∧ Returns test.fault test.cells pattern ∨
        test.Stops rom pattern t)

variable {test rom} {s : State Msx} {inv : State Msx → Prop} {lines lines' : List (Line Label)}
  {done : Label} {row : Word} {start : Word}

theorem fetch_pass (placed : rom.program.Placed start (report test.pass test.fail done row)) :
    rom.program.fetch (rom.program.addr test.pass) = some (.ld16 .hl (.addr .strPass)) := by
  rw [placed.1]
  exact placed.2.1

theorem fetch_fail (placed : rom.program.Placed start (report test.pass test.fail done row)) :
    rom.program.fetch (rom.program.addr test.fail) = some (.ld .e (.reg .a)) := by
  obtain ⟨later, here, next, -⟩ := placed.suffix
    ((report test.pass test.fail done row).take 5) ((report test.pass test.fail done row).drop 5)
  rw [here]
  exact next

/-- No instruction of the run stands at one of the labels. -/
theorem keeps_of_runs (placed : rom.program.Placed start (report test.pass test.fail done row))
    (runs : rom.computer.Runs test.May s) : ¬test.Over rom s ∧ test.Keeps rom s := by
  obtain ⟨i, fetched, notPass, notFail, own⟩ := runs
  constructor
  · rintro (pass | fail)
    · have here := fetch_pass placed
      rw [← pass] at here
      exact notPass (Option.some.inj (fetched.symm.trans here))
    · have here := fetch_fail placed
      rw [← fail] at here
      exact notFail (Option.some.inj (fetched.symm.trans here))
  · intro j fetched'
    obtain rfl := Option.some.inj (fetched.symm.trans fetched')
    exact own

variable (test rom) in
/-- The tests' own loop instructions touch no cell. -/
theorem counts (loop : Label) : rom.computer.Counts test.May loop where
  documented _ := rfl
  quiet i mem s := by
    simp only [countDown, List.mem_cons, Line.op.injEq, List.not_mem_nil, or_false] at mem
    rcases mem with rfl | rfl | rfl | rfl <;> simp [May, State.accesses]

variable (test) in
theorem quiet_scanTurn (get : Instr Label) (fail : Label) (i : Instr Label)
    (mem : .op i ∈ (scanTurn get fail).tail) (s : State Msx) : test.May i s := by
  simp only [scanTurn, List.tail_cons, List.mem_cons, Line.op.injEq, List.not_mem_nil,
    or_false] at mem
  rcases mem with rfl | rfl | rfl <;> simp [May, State.accesses]

/-! ## From the loops of a pass -/

/-- A write loop goes upwards, one cell at a time. -/
theorem held_update {w low : Nat} {ram : BitVec w → Byte} {cell : BitVec w} {pattern : Byte}
    (held : ∀ c, low ≤ c.toNat → c.toNat < cell.toNat → ram c = pattern) (c : BitVec w)
    (above : low ≤ c.toNat) (upto : c.toNat ≤ cell.toNat) :
    Function.update ram cell pattern c = pattern := by
  rcases eq_or_ne c cell with rfl | other
  · exact Function.update_self ..
  · have below : c.toNat ≠ cell.toNat := fun same => other (BitVec.eq_of_toNat_eq same)
    rw [Function.update_of_ne other]
    exact held c above (lt_of_le_of_ne upto below)

section Verify

variable {value : Word → Byte} {ready : Word → Msx → Prop} {first count : Nat} {pattern : Byte}
  {t : State Msx} (cells : ∀ c, test.cells c ↔ first ≤ c.toNat ∧ c.toNat < first + count)
  (held : ∀ c, test.cells c → value c = (test.fault c).read pattern)

include cells held

theorem returns_of_scanned (scanned : Computer.Scanned value ready pattern first count 0 t) :
    Returns test.fault test.cells pattern := by
  intro c inside
  obtain ⟨above, below⟩ := (cells c).mp inside
  rw [← held c inside]
  exact scanned.passed c above below

theorem stops_of_mismatch (failed : t.cpu.pc = rom.program.addr test.fail)
    (de : hi t.cpu.bank.de = pattern) (mismatch : Computer.Mismatch value first count t) :
    test.Stops rom pattern t := by
  have inside : test.cells t.cpu.bank.hl := (cells _).mpr ⟨mismatch.above, mismatch.below⟩
  refine ⟨failed, de, inside, ?_, fun c inside' lower => ?_, ?_⟩
  · rw [← held _ inside, ← de]
    exact mismatch.differs
  · rw [← held c inside', ← de]
    exact mismatch.least c ((cells c).mp inside').1 lower
  · rw [← held _ inside]
    exact mismatch.actual

end Verify

/-! ## From two passes -/

theorem Stops.finding {pattern : Byte} {t : State Msx} (h : test.Stops rom pattern t)
    (before after : List Byte) (split : [0xAA#8, 0x55#8] = before ++ pattern :: after)
    (earlier : ∀ p ∈ before, Returns test.fault test.cells p) :
    Finding test.fault test.cells [0xAA#8, 0x55#8] (hi t.cpu.bank.de) t.cpu.bank.hl
      t.cpu.af.a := by
  rw [h.expected]
  exact ⟨⟨before, after, split, earlier⟩, h.inside, h.differs, h.least, h.actual⟩

/-- Two passes, with a pattern and with its complement, find every stuck bit. -/
theorem finds_of_passes (pass : test.Pass rom inv lines 0xAA#8)
    (pass' : test.Pass rom inv lines' 0x55#8) (start : inv s)
    (placed : rom.program.Placed s.cpu.pc
      (lines ++ (lines' ++ report test.pass test.fail done row))) : test.Finds rom s := by
  have reported : ∃ later, rom.program.Placed later (report test.pass test.fail done row) := by
    obtain ⟨later, placed'⟩ := placed.suffix lines _
    exact placed'.suffix lines' _
  obtain ⟨_, reported⟩ := reported
  have outcome : ∃ t, test.Ends rom s t ∧
      (t.cpu.pc = rom.program.addr test.pass ∧ Returns test.fault test.cells 0xAA#8 ∧
          Returns test.fault test.cells 0x55#8 ∨
        t.cpu.pc = rom.program.addr test.fail ∧ Finding test.fault test.cells [0xAA#8, 0x55#8]
          (hi t.cpu.bank.de) t.cpu.bank.hl t.cpu.af.a) := by
    obtain ⟨t, reached, ⟨later, kept, returned⟩ | stops⟩ := pass s _ start placed
    · obtain ⟨u, reached', ⟨later', -, returned'⟩ | stops⟩ := pass' t _ kept later
      · refine ⟨u, ⟨(reached.trans reached').mono fun s => keeps_of_runs reported, ?_⟩, ?_⟩
        · exact .inl later'.1.symm
        · exact .inl ⟨later'.1.symm, returned, returned'⟩
      · refine ⟨u, ⟨(reached.trans reached').mono fun s => keeps_of_runs reported, ?_⟩, ?_⟩
        · exact .inr stops.pc
        · refine .inr ⟨stops.pc, stops.finding [0xAA#8] [] rfl ?_⟩
          intro p mem
          rw [List.mem_singleton.mp mem]
          exact returned
    · refine ⟨t, ⟨reached.mono fun s => keeps_of_runs reported, .inr stops.pc⟩, ?_⟩
      exact .inr ⟨stops.pc, stops.finding [] [0x55#8] rfl (by simp)⟩
  have healthy_iff : (∀ c, test.cells c → (test.fault c).Healthy) ↔
      Returns test.fault test.cells 0xAA#8 ∧ Returns test.fault test.cells 0x55#8 :=
    all_healthy_iff 0xAA#8
  obtain ⟨t, ends, ⟨passed, returned⟩ | ⟨failed, finding⟩⟩ := outcome
  · exact ⟨iff_of_true ⟨t, ends, passed⟩ (healthy_iff.mpr returned),
      fun sick => absurd (healthy_iff.mpr returned) sick⟩
  · have sick : ¬∀ c, test.cells c → (test.fault c).Healthy := fun healthy =>
      finding.differs ((healthy _ finding.inside).read _)
    refine ⟨iff_of_false ?_ sick, fun _ => ⟨t, ends, failed, finding⟩⟩
    rintro ⟨u, ends', passed⟩
    rw [ends.unique ends'] at failed
    have same := (congrArg rom.program.fetch (passed.symm.trans failed))
    rw [fetch_pass reported, fetch_fail reported] at same
    cases same

end MemoryTest

end MsxPulse.Rom
