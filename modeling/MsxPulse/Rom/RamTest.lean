import MsxPulse.Rom.MarchTest

/-!
# The RAM test

HL walks up from C000 while BC counts down, so the cell under test is the one at minus BC.
-/

namespace MsxPulse.Rom

open Library (StuckAt Returns)
open Library.Z80

/-- The RAM test of a machine whose RAM has some faults. -/
def MemoryTest.ram (faults : Word → StuckAt 8) : MemoryTest where
  pass := .ramPass
  fail := .ramFail
  cells c := ramStart ≤ c ∧ c ≤ ramEnd
  fault := faults
  own _ s cell := cell = .ram (0#16 - s.cpu.bank.bc)

namespace RamTest

open Computer MemoryTest

variable {rom : Rom} {faults : Word → StuckAt 8} {s : State Msx} {loop : Label} {pattern : Byte}
  {rest : List (Line Label)}

/-- The cells below HL hold the pattern. -/
structure Filled (faults : Word → StuckAt 8) (pattern : Byte) (k : Nat) (bank : Bank) (env : Msx) :
    Prop where
  left : k ≤ 0x4000
  hl : bank.hl = BitVec.ofNat 16 (0x10000 - k)
  de : hi bank.de = pattern
  faults : env.faults = faults
  held : ∀ c : Word, 0xC000 ≤ c.toNat → c.toNat + k < 0x10000 → env.ram c = pattern

theorem run_ramStore (s : State Msx) : rom.computer.run (ramStore pattern) s =
    ⟨{ s.cpu with
        bank := { s.cpu.bank with hl := s.cpu.bank.hl + 1#16 }
        pc := s.cpu.pc + 2#16 + 1#16 },
      { s.env with ram := Function.update s.env.ram s.cpu.bank.hl pattern }⟩ := rfl

theorem Filled.store {k : Nat} (h : Filled faults pattern (k + 1) s.cpu.bank s.env)
    (bc : s.cpu.bank.bc = BitVec.ofNat 16 (k + 1)) :
    rom.computer.MayRun (MemoryTest.ram faults).May (ramStore pattern) s ∧
      (rom.computer.run (ramStore pattern) s).cpu.bank.bc = s.cpu.bank.bc ∧
      Filled faults pattern k
        { (rom.computer.run (ramStore pattern) s).cpu.bank with bc := BitVec.ofNat 16 k }
        (rom.computer.run (ramStore pattern) s).env := by
  have left := h.left
  have at_cell : s.cpu.bank.hl.toNat = 0x10000 - (k + 1) := by
    rw [h.hl, BitVec.toNat_ofNat]
    omega
  rw [run_ramStore]
  refine ⟨?_, rfl, ?_⟩
  · have under : s.cpu.bank.hl = 0#16 - s.cpu.bank.bc := by
      rw [h.hl, bc]
      apply BitVec.eq_of_toNat_eq
      simp only [BitVec.toNat_sub, BitVec.toNat_ofNat]
      omega
    refine ⟨?_, ?_, trivial⟩
    · simp [May, State.accesses, Msx.touched, MemoryTest.ram, under]
    · simp [May, State.accesses]
  · exact
      { left := by omega
        hl := by
          show s.cpu.bank.hl + 1#16 = _
          rw [h.hl, ← BitVec.ofNat_add]
          exact congrArg _ (by omega)
        de := h.de
        faults := h.faults
        held := fun c above lower =>
          held_update (fun c above below => h.held c above (by omega)) c above (by omega) }

/-- A write loop leaves its pattern in every cell. -/
theorem reaches_ramWrite (known : s.env.faults = faults)
    (placed : rom.program.Placed s.cpu.pc (ramWrite loop pattern ++ rest)) :
    ∃ t, rom.computer.machine.Reaches (rom.computer.Runs (MemoryTest.ram faults).May) s t ∧
      rom.program.Placed t.cpu.pc rest ∧ Filled faults pattern 0 t.cpu.bank t.env := by
  have quiet : rom.computer.MayRun (MemoryTest.ram faults).May
      (.op (.ld .d (.imm pattern)) :: ramAll) s := by
    simp [ramAll, MayRun, May, State.accesses]
  obtain ⟨ran, later⟩ := reaches_block (c := rom.computer) (.op (.ld .d (.imm pattern)) :: ramAll)
    (.label loop :: (ramStore pattern ++ (countDown loop ++ rest))) rfl placed quiet
  have start : Filled faults pattern (0x3FFF + 1)
      (rom.computer.run (.op (.ld .d (.imm pattern)) :: ramAll) s).cpu.bank
      (rom.computer.run (.op (.ld .d (.imm pattern)) :: ramAll) s).env :=
    { left := Nat.le_refl _
      hl := rfl
      de := hi_join pattern (lo s.cpu.bank.de)
      faults := known
      held := fun c above lower => by omega }
  obtain ⟨t, looped, after, -, filled⟩ := (counts (MemoryTest.ram faults) rom loop).repeats
    (ramStore pattern) (Filled faults pattern) rfl (fun k u bc filled => filled.store bc)
    (by decide) rfl later start
  exact ⟨t, ran.trans looped, after, filled⟩

/-- A verify loop finds the least cell that does not return the pattern, if there is one. -/
theorem reaches_ramVerify (filled : Filled faults pattern 0 s.cpu.bank s.env)
    (placed : rom.program.Placed s.cpu.pc (ramVerify loop ++ rest)) :
    ∃ t, rom.computer.machine.Reaches (rom.computer.Runs (MemoryTest.ram faults).May) s t ∧
      (rom.program.Placed t.cpu.pc rest ∧ t.env.faults = faults ∧
          Returns faults (MemoryTest.ram faults).cells pattern ∨
        (MemoryTest.ram faults).Stops rom pattern t) := by
  have quiet : rom.computer.MayRun (MemoryTest.ram faults).May ramAll s := by
    simp [ramAll, MayRun, May, State.accesses]
  obtain ⟨ran, later⟩ := reaches_block (c := rom.computer) ramAll
    (.label loop :: (scanTurn (.ld .a .atHl) Label.ramFail ++ (countDown loop ++ rest))) rfl placed
    quiet
  have cells (c : Word) : (MemoryTest.ram faults).cells c ↔
      0xC000 ≤ c.toNat ∧ c.toNat < 0xC000 + 0x4000 := by
    show ramStart ≤ c ∧ c ≤ ramEnd ↔ _
    rw [BitVec.le_def, BitVec.le_def, Nat.lt_succ_iff]
    rfl
  have held : ∀ c, (MemoryTest.ram faults).cells c →
      s.env.cell c = ((MemoryTest.ram faults).fault c).read pattern := by
    intro c inside
    obtain ⟨above, below⟩ := (cells c).mp inside
    rw [Msx.cell, filled.faults, filled.held c above below]
    rfl
  have start : Scanned s.env.cell (fun _ env => env = s.env) pattern 0xC000 0x4000 (0x3FFF + 1)
      (rom.computer.run ramAll s) :=
    { left := Nat.le_refl _
      bc := rfl
      hl := rfl
      de := filled.de
      ready := rfl
      passed := fun cell above lower => by omega }
  obtain ⟨t, scanned, de, -, outcome⟩ := (counts (MemoryTest.ram faults) rom loop).scanned
    (quiet_scanTurn (MemoryTest.ram faults) (.ld .a .atHl) .ramFail) rfl (by decide)
    (fun u above below sum same => by
      have under : u.cpu.bank.hl = 0#16 - u.cpu.bank.bc := by
        rw [BitVec.eq_sub_iff_add_eq]
        exact sum
      refine ⟨?_, rfl, ?_, same⟩
      · simp [May, State.accesses, Msx.touched, MemoryTest.ram, under]
      · rw [← same]
        rfl)
    (by decide) start later
  refine ⟨t, ran.trans scanned, ?_⟩
  rcases outcome with ⟨after, finished⟩ | ⟨failed, mismatch⟩
  · refine .inl ⟨after, ?_, returns_of_scanned cells held finished⟩
    rw [finished.ready]
    exact filled.faults
  · exact .inr (stops_of_mismatch cells held failed de mismatch)

theorem pass (rom : Rom) (faults : Word → StuckAt 8) (loop loop' : Label) (pattern : Byte) :
    (MemoryTest.ram faults).Pass rom (fun s => s.env.faults = faults)
      (ramWrite loop pattern ++ ramVerify loop') pattern := by
  intro s rest known placed
  rw [List.append_assoc] at placed
  obtain ⟨t, written, later, filled⟩ := reaches_ramWrite known placed
  obtain ⟨u, verified, outcome⟩ := reaches_ramVerify filled later
  refine ⟨u, written.trans verified, ?_⟩
  rcases outcome with ⟨after, faults, returned⟩ | stops
  · exact .inl ⟨after, faults, returned⟩
  · exact .inr stops

/-- The RAM test, from its first line on, finds every stuck bit. -/
theorem finds (rom : Rom) (s : State Msx) :
    (MemoryTest.ram s.env.faults).Finds rom { s with cpu.pc := rom.ramTestAt } := by
  have placed : rom.program.Placed rom.ramTestAt
      ((ramWrite .ramW1 0xAA#8 ++ ramVerify .ramR1) ++
        ((ramWrite .ramW2 0x55#8 ++ ramVerify .ramR2) ++ ramReport)) := by
    simpa only [ramTest, List.append_assoc] using rom.ramPlaced
  exact finds_of_passes (pass rom s.env.faults .ramW1 .ramR1 0xAA#8)
    (pass rom s.env.faults .ramW2 .ramR2 0x55#8) rfl placed

end RamTest

end MsxPulse.Rom
