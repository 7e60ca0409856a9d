import MsxPulse.Rom.RamTest

/-!
# The VRAM test, and both tests of the ROM

The address is set before each loop and counts by itself from then on. HL follows it in the
verify loops only, where the VDP is one cell ahead. The cell under test is the one at 4000
less BC.
-/

namespace MsxPulse.Rom

open Library (StuckAt Returns)
open Library.Z80

/-- The VRAM test of a machine whose VRAM has some faults. Its calls use two bytes of stack. -/
def MemoryTest.vram (faults : BitVec 14 → StuckAt 8) (sp : Word) : MemoryTest where
  pass := .vramPass
  fail := .vramFail
  cells c := vramTestStart ≤ c ∧ c ≤ vramTestEnd
  fault c := faults (c.setWidth 14)
  own i s cell := cell = .vram ((vramTestEnd + 1#16 - s.cpu.bank.bc).setWidth 14) ∨
    ((∃ l, i = .call l) ∨ i = .ret none) ∧ (cell = .ram (sp - 1#16) ∨ cell = .ram (sp - 2#16))

namespace VramTest

open Computer MemoryTest

/-- The two bytes below SP return what is written to them. -/
structure Stack (sp : Word) (s : State Msx) : Prop where
  here : s.cpu.sp = sp
  high : (s.env.faults (sp - 1#16)).Healthy
  low : (s.env.faults (sp - 2#16)).Healthy

/-- The VDP waits for the first byte of a pair, and its VRAM has the given faults. -/
structure Synced (faults : BitVec 14 → StuckAt 8) (v : Vdp) : Prop where
  latch : v.latch = none
  faults : v.faults = faults

variable {rom : Rom} {faults : BitVec 14 → StuckAt 8} {sp : Word} {s : State Msx}
  {loop entry : Label} {change : Arith} {mask pattern changed : Byte} {rest : List (Line Label)}

/-! ## Setting the address -/

theorem Stack.read_return (h : Stack sp s) (high low : Byte) :
    let env := Msx.bus.write (Msx.bus.write s.env (sp - 1#16) high) (sp - 2#16) low
    Msx.bus.read env (sp - 2#16 + 1#16) = high ∧ Msx.bus.read env (sp - 2#16) = low := by
  have back : sp - 2#16 + 1#16 = sp - 1#16 := by bv_omega
  have apart : sp - 1#16 ≠ sp - 2#16 := by bv_omega
  constructor
  · rw [back]
    show (s.env.faults (sp - 1#16)).read _ = high
    rw [h.high.read]
    exact (Function.update_of_ne apart ..).trans (Function.update_self ..)
  · show (s.env.faults (sp - 2#16)).read _ = low
    rw [h.low.read]
    exact Function.update_self ..

theorem run_setAddress (entry : Label) (changes : ∀ u : State Msx, u.cpu.af.a = hi s.cpu.bank.hl →
      (rom.computer.result u mask change).a = changed) :
    let t := rom.computer.run ((setAddress entry change mask).take 6) s
    t.cpu.bank = s.cpu.bank ∧ t.cpu.sp = s.cpu.sp ∧
      t.env = { s.env with
        vdp := (s.env.vdp.writeCtrl (lo s.cpu.bank.hl)).writeCtrl changed } := by
  refine ⟨rfl, rfl, ?_⟩
  rw [← changes (rom.computer.run ((setAddress entry change mask).take 4) s) rfl]
  rfl

/-- The call leaves HL, with its high byte changed, as a pair of control bytes. -/
theorem reaches_setAddress (faults : BitVec 14 → StuckAt 8) (changed : Byte) (stack : Stack sp s)
    (routine : rom.program.Placed (rom.program.addr entry) (setAddress entry change mask))
    (changes : ∀ u : State Msx, u.cpu.af.a = hi s.cpu.bank.hl →
      (rom.computer.result u mask change).a = changed)
    (placed : rom.program.Placed s.cpu.pc (.op (.call entry) :: rest)) :
    ∃ t, rom.computer.machine.Reaches (rom.computer.Runs (MemoryTest.vram faults sp).May) s t ∧
      rom.program.Placed t.cpu.pc rest ∧ Stack sp t ∧ t.cpu.bank = s.cpu.bank ∧
      t.env.faults = s.env.faults ∧
      t.env.vdp = (s.env.vdp.writeCtrl (lo s.cpu.bank.hl)).writeCtrl changed := by
  let called := rom.computer.exec (.call entry) s
  let back := rom.computer.run ((setAddress entry change mask).take 6) called
  have may_call : (MemoryTest.vram faults sp).May (.call entry) s := by
    simp [May, State.accesses, Msx.touched, MemoryTest.vram, stack.here]
  have may_run : rom.computer.MayRun (MemoryTest.vram faults sp).May
      ((setAddress entry change mask).take 6) called := by
    simp [setAddress, MayRun, May, State.accesses, Msx.touched, vdpCtrl, vdpData]
  have under : called.cpu.sp = sp - 2#16 := by
    rw [← stack.here]
    rfl
  obtain ⟨bank, kept, env⟩ := run_setAddress (s := called) entry changes
  have sp' : back.cpu.sp = sp - 2#16 := kept.trans under
  obtain ⟨high, low⟩ := stack.read_return (hi (s.next (.call entry)).pc)
    (lo (s.next (.call entry)).pc)
  have may_ret : (MemoryTest.vram faults sp).May (.ret none) back := by
    have twice : sp - 2#16 + 1#16 = sp - 1#16 := by bv_omega
    simp [May, State.accesses, Msx.touched, MemoryTest.vram, sp', twice, Flags.takes]
  have returned : rom.computer.exec (.ret none) back =
      { back with cpu := { back.cpu with sp := sp, pc := s.cpu.pc + 3#16 } } := by
    have top : sp - 2#16 + 2#16 = sp := by bv_omega
    have read : ∀ a, Msx.bus.read back.env a = Msx.bus.read called.env a := by
      intro a
      rw [env]
      rfl
    have written : called.env = Msx.bus.write (Msx.bus.write s.env (sp - 1#16)
        (hi (s.next (.call entry)).pc)) (sp - 2#16) (lo (s.next (.call entry)).pc) := by
      rw [← stack.here]
      rfl
    have popped : join (Msx.bus.read back.env (sp - 2#16 + 1#16))
        (Msx.bus.read back.env (sp - 2#16)) = s.cpu.pc + 3#16 := by
      rw [read, read, written, high, low, join_hi_lo]
      rfl
    show { back with cpu := { back.cpu with
        sp := back.cpu.sp + 2#16
        pc := join (Msx.bus.read back.env (back.cpu.sp + 1#16))
          (Msx.bus.read back.env back.cpu.sp) } } = _
    rw [sp', top, popped]
  obtain ⟨ran, later⟩ := reaches_block (c := rom.computer) (s := called)
    ((setAddress entry change mask).take 6) [.op (.ret none)] rfl routine may_run
  have last := reaches_step (c := rom.computer) (s := back) later.1 may_ret (.refl _)
  refine ⟨_, reaches_step placed.1 may_call (ran.trans last), ?_⟩
  rw [returned]
  have faults : back.env.faults = s.env.faults := by
    rw [env]
    rfl
  refine ⟨placed.2, ⟨rfl, ?_, ?_⟩, bank, faults, ?_⟩
  · rw [faults]
    exact stack.high
  · rw [faults]
    exact stack.low
  · rw [env]
    rfl

theorem Synced.write {v : Vdp} (h : Synced faults v) :
    (v.writeCtrl 0x00#8).writeCtrl 0x50#8 = { v with addr := 0x1000#14 } := by
  rcases v with ⟨vram, _, addr, ahead, _, registers, status⟩
  obtain ⟨rfl, rfl⟩ := h
  rfl

theorem Synced.read {v : Vdp} (h : Synced faults v) :
    (v.writeCtrl 0x00#8).writeCtrl 0x10#8 =
      { v with addr := 0x1001#14, ahead := v.cell 0x1000#14 } := by
  rcases v with ⟨vram, _, addr, ahead, _, registers, status⟩
  obtain ⟨rfl, rfl⟩ := h
  rfl

/-- What every loop of the test starts from. -/
theorem reaches_vramAll (faults : BitVec 14 → StuckAt 8) (changed : Byte) (stack : Stack sp s)
    (routine : rom.program.Placed (rom.program.addr entry) (setAddress entry change mask))
    (changes : ∀ u : State Msx, u.cpu.af.a = 0x10#8 →
      (rom.computer.result u mask change).a = changed)
    (placed : rom.program.Placed s.cpu.pc (vramAll entry ++ rest)) :
    ∃ t, rom.computer.machine.Reaches (rom.computer.Runs (MemoryTest.vram faults sp).May) s t ∧
      rom.program.Placed t.cpu.pc rest ∧ Stack sp t ∧
      t.cpu.bank = { s.cpu.bank with bc := 0x3000#16, hl := 0x1000#16 } ∧
      t.env.faults = s.env.faults ∧
      t.env.vdp = (s.env.vdp.writeCtrl 0x00#8).writeCtrl changed := by
  have quiet (u : State Msx) (rr : Reg16) (nn : Word) : rom.computer.MayRun
      (MemoryTest.vram faults sp).May [.op (.ld16 rr (.lit nn))] u := by
    simp [MayRun, May, State.accesses]
  obtain ⟨first, called⟩ := reaches_block (c := rom.computer)
    [.op (.ld16 .hl (.lit vramTestStart))]
    (.op (.call entry) :: .op (.ld16 .bc (.lit (vramTestEnd - vramTestStart + 1#16))) :: rest) rfl
    placed (quiet s .hl vramTestStart)
  let u := rom.computer.run [.op (.ld16 .hl (.lit vramTestStart))] s
  have stack' : Stack sp u := ⟨stack.here, stack.high, stack.low⟩
  have high : hi u.cpu.bank.hl = 0x10#8 := (by decide : hi vramTestStart = 0x10#8)
  have low : lo u.cpu.bank.hl = 0x00#8 := (by decide : lo vramTestStart = 0x00#8)
  obtain ⟨t, set, later, stack'', bank, board, vdp⟩ :=
    reaches_setAddress faults changed stack' routine (by rw [high]; exact changes) called
  obtain ⟨last, after⟩ := reaches_block (c := rom.computer)
    [.op (.ld16 .bc (.lit (vramTestEnd - vramTestStart + 1#16)))] rest rfl later
    (quiet t .bc (vramTestEnd - vramTestStart + 1#16))
  rw [low] at vdp
  refine ⟨_, (first.trans set).trans last, after, ⟨stack''.here, stack''.high, stack''.low⟩, ?_,
    board, vdp⟩
  show { t.cpu.bank with bc := vramTestEnd - vramTestStart + 1#16 } = _
  rw [bank]
  rfl

/-! ## The loops -/

/-- The cells below the VDP's address hold the pattern. -/
structure Filled (board : Word → StuckAt 8) (faults : BitVec 14 → StuckAt 8) (pattern : Byte) (k : Nat)
    (env : Msx) : Prop where
  left : k ≤ 0x3000
  board : env.faults = board
  synced : Synced faults env.vdp
  addr : env.vdp.addr = BitVec.ofNat 14 (0x4000 - k)
  held : ∀ c : BitVec 14, 0x1000 ≤ c.toNat → c.toNat + k < 0x4000 → env.vdp.vram c = pattern

theorem run_vramStore (s : State Msx) : rom.computer.run (vramStore pattern) s =
    ⟨{ s.cpu with af.a := pattern, pc := s.cpu.pc + 2#16 + 2#16 },
      { s.env with vdp := s.env.vdp.writeData pattern }⟩ := rfl

theorem Filled.store {board : Word → StuckAt 8} {k : Nat}
    (h : Filled board faults pattern (k + 1) s.env)
    (bc : s.cpu.bank.bc = BitVec.ofNat 16 (k + 1)) :
    rom.computer.MayRun (MemoryTest.vram faults sp).May (vramStore pattern) s ∧
      (rom.computer.run (vramStore pattern) s).cpu.bank.bc = s.cpu.bank.bc ∧
      Filled board faults pattern k (rom.computer.run (vramStore pattern) s).env := by
  have left := h.left
  have at_cell : s.env.vdp.addr.toNat = 0x4000 - (k + 1) := by
    rw [h.addr, BitVec.toNat_ofNat]
    omega
  rw [run_vramStore]
  refine ⟨?_, rfl, ?_⟩
  · have under : s.env.vdp.addr = (vramTestEnd + 1#16 - s.cpu.bank.bc).setWidth 14 := by
      apply BitVec.eq_of_toNat_eq
      rw [at_cell, bc]
      simp only [vramTestEnd, BitVec.toNat_setWidth, BitVec.toNat_sub, BitVec.toNat_add,
        BitVec.toNat_ofNat]
      omega
    have quiet : (MemoryTest.vram faults sp).May (.ld .a (.imm pattern)) s := by
      simp [May, State.accesses]
    refine ⟨quiet, ?_, trivial⟩
    have env : (rom.computer.exec (.ld .a (.imm pattern)) s).env = s.env := rfl
    have bank : (rom.computer.exec (.ld .a (.imm pattern)) s).cpu.bank = s.cpu.bank := rfl
    simpa [May, State.accesses, Msx.touched, MemoryTest.vram, env, bank] using under
  · exact
      { left := by omega
        board := h.board
        synced := ⟨rfl, h.synced.faults⟩
        addr := by
          show s.env.vdp.addr + 1#14 = _
          rw [h.addr, ← BitVec.ofNat_add]
          exact congrArg _ (by omega)
        held := fun c above lower =>
          held_update (fun c above below => h.held c above (by omega)) c above (by omega) }

theorem reaches_vramWrite {board : Word → StuckAt 8} (stack : Stack sp s)
    (known : s.env.faults = board) (synced : Synced faults s.env.vdp)
    (placed : rom.program.Placed s.cpu.pc (vramWrite loop pattern ++ rest)) :
    ∃ t, rom.computer.machine.Reaches (rom.computer.Runs (MemoryTest.vram faults sp).May) s t ∧
      rom.program.Placed t.cpu.pc rest ∧ t.cpu.sp = sp ∧ Filled board faults pattern 0 t.env := by
  rw [vramWrite, List.append_assoc] at placed
  obtain ⟨t, set, later, stack', bank, board', vdp⟩ := reaches_vramAll faults 0x50#8 stack
    rom.setWritePlaced (fun u high => by rw [result, high]; rfl) placed
  rw [synced.write] at vdp
  have start : Filled board faults pattern (0x2FFF + 1) t.env :=
    { left := Nat.le_refl _
      board := board'.trans known
      synced := by rw [vdp]; exact ⟨synced.latch, synced.faults⟩
      addr := by rw [vdp]
      held := fun c above lower => by omega }
  obtain ⟨u, looped, after, sp', filled⟩ := (counts (MemoryTest.vram faults sp) rom loop).repeats
    (vramStore pattern) (fun k _ env => Filled board faults pattern k env) rfl
    (fun k u bc filled => filled.store bc) (by decide) (by rw [bank]) later start
  exact ⟨u, set.trans looped, after, sp'.trans stack'.here, filled⟩

/-- The VDP has read the given cell ahead, and its VRAM is as it was. -/
structure Ahead (board : Word → StuckAt 8) (v : Vdp) (c : Word) (env : Msx) : Prop where
  board : env.faults = board
  latch : env.vdp.latch = none
  vram : env.vdp.vram = v.vram
  faults : env.vdp.faults = v.faults
  addr : env.vdp.addr = c.setWidth 14 + 1#14
  ahead : env.vdp.ahead = v.cell (c.setWidth 14)

/-- A data read delivers the cell of HL. -/
theorem Ahead.get {board : Word → StuckAt 8} {v : Vdp} (h : Ahead board v s.cpu.bank.hl s.env)
    (sum : s.cpu.bank.hl + s.cpu.bank.bc = 0x4000#16) :
    (MemoryTest.vram faults sp).May (.inp vdpData) s ∧
      (rom.computer.exec (.inp vdpData) s).cpu.bank = s.cpu.bank ∧
      (rom.computer.exec (.inp vdpData) s).cpu.af.a = v.cell (s.cpu.bank.hl.setWidth 14) ∧
      Ahead board v (s.cpu.bank.hl + 1#16) (rom.computer.exec (.inp vdpData) s).env := by
  have next : (s.cpu.bank.hl + 1#16).setWidth 14 = s.env.vdp.addr := by
    rw [h.addr]
    exact BitVec.setWidth_add _ _ (by decide)
  refine ⟨?_, rfl, h.ahead, h.board, rfl, h.vram, h.faults, ?_, ?_⟩
  · have under : s.env.vdp.addr - 1#14 = (vramTestEnd + 1#16 - s.cpu.bank.bc).setWidth 14 := by
      have here : vramTestEnd + 1#16 - s.cpu.bank.bc = s.cpu.bank.hl := by
        rw [BitVec.sub_eq_iff_eq_add]
        exact sum.symm
      rw [here, h.addr, BitVec.add_sub_cancel]
    simpa [May, State.accesses, Msx.touched, MemoryTest.vram] using under
  · rw [next]
    rfl
  · rw [next]
    show (s.env.vdp.faults _).read (s.env.vdp.vram _) = (v.faults _).read (v.vram _)
    rw [h.faults, h.vram]

theorem reaches_vramVerify {board : Word → StuckAt 8} (stack : Stack sp s)
    (filled : Filled board faults pattern 0 s.env)
    (placed : rom.program.Placed s.cpu.pc (vramVerify loop pattern ++ rest)) :
    ∃ t, rom.computer.machine.Reaches (rom.computer.Runs (MemoryTest.vram faults sp).May) s t ∧
      (rom.program.Placed t.cpu.pc rest ∧
          (Stack sp t ∧ t.env.faults = board ∧ Synced faults t.env.vdp) ∧
          Returns (MemoryTest.vram faults sp).fault (MemoryTest.vram faults sp).cells pattern ∨
        (MemoryTest.vram faults sp).Stops rom pattern t) := by
  have quiet : rom.computer.MayRun (MemoryTest.vram faults sp).May [.op (.ld .d (.imm pattern))] s := by
    simp [MayRun, May, State.accesses]
  rw [vramVerify, List.append_assoc] at placed
  obtain ⟨first, next⟩ := reaches_block (c := rom.computer) [.op (.ld .d (.imm pattern))] _ rfl
    placed quiet
  let u := rom.computer.run [.op (.ld .d (.imm pattern))] s
  have stack' : Stack sp u := ⟨stack.here, stack.high, stack.low⟩
  obtain ⟨t, set, later, stack'', bank, board', vdp⟩ := reaches_vramAll faults 0x10#8 stack'
    rom.setReadPlaced (fun u high => by rw [result, high]; rfl) next
  have synced : Synced faults u.env.vdp := filled.synced
  rw [synced.read] at vdp
  have cells (c : Word) : (MemoryTest.vram faults sp).cells c ↔
      0x1000 ≤ c.toNat ∧ c.toNat < 0x1000 + 0x3000 := by
    show vramTestStart ≤ c ∧ c ≤ vramTestEnd ↔ _
    rw [BitVec.le_def, BitVec.le_def, Nat.lt_succ_iff]
    rfl
  have held : ∀ c, (MemoryTest.vram faults sp).cells c → s.env.vdp.cell (c.setWidth 14) =
      ((MemoryTest.vram faults sp).fault c).read pattern := by
    intro c inside
    obtain ⟨above, below⟩ := (cells c).mp inside
    have same : (c.setWidth 14).toNat = c.toNat := by
      rw [BitVec.toNat_setWidth]
      omega
    rw [Vdp.cell, filled.synced.faults, filled.held _ (by omega) (by omega)]
    rfl
  have start : Scanned (fun c => s.env.vdp.cell (c.setWidth 14)) (Ahead board s.env.vdp) pattern
      0x1000 0x3000 (0x2FFF + 1) t :=
    { left := Nat.le_refl _
      bc := by rw [bank]
      hl := by rw [bank]
      de := by rw [bank]; exact hi_join pattern (lo s.cpu.bank.de)
      ready := by
        rw [bank]
        exact ⟨board'.trans filled.board, by rw [vdp]; exact synced.latch, by rw [vdp]; rfl,
          by rw [vdp]; rfl, by rw [vdp]; rfl, by rw [vdp]; rfl⟩
      passed := fun cell above lower => by omega }
  obtain ⟨v, scanned, de, sp', outcome⟩ := (counts (MemoryTest.vram faults sp) rom loop).scanned
    (quiet_scanTurn (MemoryTest.vram faults sp) (.inp vdpData) .vramFail) rfl (by decide)
    (fun u above below sum ready => ready.get sum) (by decide) start later
  refine ⟨v, (first.trans set).trans scanned, ?_⟩
  rcases outcome with ⟨after, finished⟩ | ⟨failed, mismatch⟩
  · have ready := finished.ready
    have same : v.env.faults = s.env.faults := ready.board.trans filled.board.symm
    refine .inl ⟨after, ⟨⟨sp'.trans stack''.here, ?_, ?_⟩, ready.board, ready.latch, ?_⟩,
      returns_of_scanned cells held finished⟩
    · rw [same]
      exact stack.high
    · rw [same]
      exact stack.low
    · exact ready.faults.trans filled.synced.faults
  · exact .inr (stops_of_mismatch cells held failed de mismatch)

theorem pass (rom : Rom) (board : Word → StuckAt 8) (faults : BitVec 14 → StuckAt 8) (sp : Word)
    (loop loop' : Label) (pattern : Byte) : (MemoryTest.vram faults sp).Pass rom
      (fun s => Stack sp s ∧ s.env.faults = board ∧ Synced faults s.env.vdp)
      (vramWrite loop pattern ++ vramVerify loop' pattern) pattern := by
  rintro s rest ⟨stack, known, synced⟩ placed
  rw [List.append_assoc] at placed
  obtain ⟨t, written, later, here, filled⟩ := reaches_vramWrite stack known synced placed
  have same : t.env.faults = s.env.faults := filled.board.trans known.symm
  have stack' : Stack sp t := ⟨here, by rw [same]; exact stack.high, by rw [same]; exact stack.low⟩
  obtain ⟨u, verified, outcome⟩ := reaches_vramVerify stack' filled later
  exact ⟨u, written.trans verified, outcome⟩

/-- The VRAM test, from its first line on, finds every stuck bit, if its calls return and the
VDP waits for the first byte of a pair. -/
theorem finds (rom : Rom) (s : State Msx) (high : (s.env.faults (s.cpu.sp - 1#16)).Healthy)
    (low : (s.env.faults (s.cpu.sp - 2#16)).Healthy) (synced : s.env.vdp.latch = none) :
    (MemoryTest.vram s.env.vdp.faults s.cpu.sp).Finds rom
      { s with cpu.pc := rom.vramTestAt } := by
  have placed : rom.program.Placed rom.vramTestAt
      ((vramWrite .vramW1 0xAA#8 ++ vramVerify .vramR1 0xAA#8) ++
        ((vramWrite .vramW2 0x55#8 ++ vramVerify .vramR2 0x55#8) ++ vramReport)) := by
    simpa only [vramTest, List.append_assoc] using rom.vramPlaced
  exact finds_of_passes
    (pass rom s.env.faults s.env.vdp.faults s.cpu.sp .vramW1 .vramR1 0xAA#8)
    (pass rom s.env.faults s.env.vdp.faults s.cpu.sp .vramW2 .vramR2 0x55#8)
    ⟨⟨rfl, high, low⟩, rfl, synced, rfl⟩ placed

end VramTest

/-- Both memory tests find every stuck bit, and touch no cell but the one under test; the
VRAM test needs a stack for its calls and a VDP that waits for the first byte of a pair. -/
theorem memoryTests_find (rom : Rom) (s : State Msx) :
    (MemoryTest.ram s.env.faults).Finds rom { s with cpu.pc := rom.ramTestAt } ∧
      ((s.env.faults (s.cpu.sp - 1#16)).Healthy → (s.env.faults (s.cpu.sp - 2#16)).Healthy →
        s.env.vdp.latch = none → (MemoryTest.vram s.env.vdp.faults s.cpu.sp).Finds rom
          { s with cpu.pc := rom.vramTestAt }) :=
  ⟨RamTest.finds rom s, VramTest.finds rom s⟩

/-- After Init: one bit is stuck in the RAM, at D000, and one in the VRAM, at 2000. -/
def twoStuckBits : State Msx where
  cpu := ⟨⟨0#8, subFlags 0#8 0#8⟩, ⟨0#16, 0#16, 0#16⟩, ⟨0#8, subFlags 0#8 0#8⟩, ⟨0#16, 0#16, 0#16⟩,
    0xFFFF#16, 0x4010#16⟩
  env :=
    { ram := fun _ => 0#8
      faults := fun a => if a = 0xD000#16 then ⟨0x01#8, 0x00#8, rfl⟩ else .healthy
      vdp :=
        { vram := fun _ => 0#8
          faults := fun a => if a = 0x2000#14 then ⟨0x00#8, 0x80#8, rfl⟩ else .healthy
          addr := 0#14
          ahead := 0#8
          latch := none
          registers := fun _ => 0#8
          status := 0#8 } }

theorem memoryTests_find_twoStuckBits :
    (MemoryTest.ram twoStuckBits.env.faults).Finds Rom.image
        { twoStuckBits with cpu.pc := Rom.image.ramTestAt } ∧
      (MemoryTest.vram twoStuckBits.env.vdp.faults 0xFFFF#16).Finds Rom.image
        { twoStuckBits with cpu.pc := Rom.image.vramTestAt } :=
  ⟨(memoryTests_find Rom.image twoStuckBits).1,
    (memoryTests_find Rom.image twoStuckBits).2 (by decide) (by decide) rfl⟩

end MsxPulse.Rom
