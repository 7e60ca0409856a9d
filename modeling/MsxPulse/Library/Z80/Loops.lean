import MsxPulse.Library.Z80.Blocks

/-!
# Loops that count BC down

BC has no flag of its own when it is decremented, so such a loop ends by testing both of
its bytes. A loop of this kind with a body without jumps is followed by an invariant over
the registers and the memory; the loop that reads cell after cell and compares each with D
has its own rule.
-/

namespace MsxPulse.Library.Z80

variable {Env L : Type}

/-- Counts BC down and goes on while it is not zero. -/
def countDown (loop : L) : List (Line L) :=
  [ .op (.dec .bc)
  , .op (.ld .a (.reg .b))
  , .op (.arith .or (.reg .c))
  , .op (.jr (some .nz) loop) ]

/-- Gets a byte into A for each HL, and leaves the loop if it is not D. -/
def scanTurn (get : Instr L) (fail : L) : List (Line L) :=
  [ .op get
  , .op (.arith .cp (.reg .d))
  , .op (.jp (some .nz) fail)
  , .op (.inc .hl) ]

namespace Computer

variable {c : Computer Env L} {may : Instr L → State Env → Prop} {s : State Env}
  {loop fail : L} {rest : List (Line L)}

/-- On an ALU that works, and where the loop's own instructions may run. -/
structure Counts (c : Computer Env L) (may : Instr L → State Env → Prop) (loop : L) : Prop where
  documented : ∀ pc, c.alu pc = .documented
  quiet : ∀ i, .op i ∈ countDown loop → ∀ s, may i s

/-- The end of a turn: BC has counted, and the loop goes on or is left. -/
theorem Counts.counted (counts : c.Counts may loop) {k : Nat} (small : k + 1 < 65536)
    (bc : s.cpu.bank.bc = BitVec.ofNat 16 (k + 1))
    (placed : c.program.Placed s.cpu.pc (countDown loop ++ rest)) :
    ∃ t, c.machine.Reaches (c.Runs may) s t ∧ t.env = s.env ∧ t.cpu.sp = s.cpu.sp ∧
      t.cpu.bank = { s.cpu.bank with bc := BitVec.ofNat 16 k } ∧
      (k = 0 ∧ c.program.Placed t.cpu.pc rest ∨ 0 < k ∧ t.cpu.pc = c.program.addr loop) := by
  have counted : BitVec.ofNat 16 (k + 1) - 1#16 = BitVec.ofNat 16 k := by
    rw [BitVec.ofNat_add, BitVec.add_sub_cancel]
  have block : c.MayRun may [.op (.dec .bc), .op (.ld .a (.reg .b)), .op (.arith .or (.reg .c))] s :=
    ⟨counts.quiet _ (by simp [countDown]) _, counts.quiet _ (by simp [countDown]) _,
      counts.quiet _ (by simp [countDown]) _, trivial⟩
  obtain ⟨reached, later⟩ := reaches_block _ (.op (.jr (some .nz) loop) :: rest) rfl placed block
  obtain ⟨t, jumped, env, cpu, outcome⟩ := reaches_jump (.inr rfl) later
    (counts.quiet _ (by simp [countDown]) _)
  have ran : c.run [.op (.dec .bc), .op (.ld .a (.reg .b)), .op (.arith .or (.reg .c))] s =
      { s with cpu := { s.cpu with
          af := Alu.documented.or (hi (BitVec.ofNat 16 k)) (lo (BitVec.ofNat 16 k))
          bank := { s.cpu.bank with bc := BitVec.ofNat 16 k }
          pc := s.cpu.pc + 1#16 + 1#16 + 1#16 } } := by
    simp [run, exec, counts.documented, bc, counted, Alu.documented, value, result, State.next,
      Cpu.get, Cpu.set, Cpu.get16, Cpu.set16, Instr.size, Operand.size]
  rw [ran] at env cpu outcome
  refine ⟨t, reached.trans jumped, env, by rw [cpu], by rw [cpu], ?_⟩
  have zero : (Alu.documented.or (hi (BitVec.ofNat 16 k)) (lo (BitVec.ofNat 16 k))).f.zero = true ↔
      k = 0 := by
    have none : BitVec.ofNat 16 k = 0#16 ↔ k = 0 := by
      rw [← BitVec.toNat_inj, BitVec.toNat_ofNat, BitVec.toNat_ofNat]
      omega
    rw [← none, ← hi_or_lo_eq_zero]
    exact logicFlags_zero _ _
  rcases outcome with ⟨taken, at_loop⟩ | ⟨taken, after⟩
  · refine .inr ⟨?_, at_loop⟩
    rw [Flags.takes, Flags.holds, Bool.not_eq_true', ← Bool.not_eq_true, zero] at taken
    exact Nat.pos_of_ne_zero taken
  · refine .inl ⟨?_, after⟩
    rw [Flags.takes, Flags.holds, Bool.not_eq_false', zero] at taken
    exact taken

/-- A loop whose body has no jumps: what a turn keeps holds when BC is zero. -/
theorem Counts.repeats (counts : c.Counts may loop) (body : List (Line L))
    (inv : Nat → Bank → Env → Prop) (block : straight body = true)
    (turn : ∀ k s, s.cpu.bank.bc = BitVec.ofNat 16 (k + 1) → inv (k + 1) s.cpu.bank s.env →
      c.MayRun may body s ∧ (c.run body s).cpu.bank.bc = s.cpu.bank.bc ∧
        inv k { (c.run body s).cpu.bank with bc := BitVec.ofNat 16 k } (c.run body s).env)
    {k : Nat} (small : k + 1 < 65536) (bc : s.cpu.bank.bc = BitVec.ofNat 16 (k + 1))
    (placed : c.program.Placed s.cpu.pc (.label loop :: (body ++ (countDown loop ++ rest))))
    (start : inv (k + 1) s.cpu.bank s.env) :
    ∃ t, c.machine.Reaches (c.Runs may) s t ∧ c.program.Placed t.cpu.pc rest ∧
      t.cpu.sp = s.cpu.sp ∧ inv 0 t.cpu.bank t.env := by
  let head (k : Nat) (u : State Env) : Prop := k < 65536 ∧ u.cpu.bank.bc = BitVec.ofNat 16 k ∧
    c.program.Placed u.cpu.pc (.label loop :: (body ++ (countDown loop ++ rest))) ∧
    u.cpu.sp = s.cpu.sp ∧ inv k u.cpu.bank u.env
  have go_on : ∀ k u, head (k + 1) u → ∃ t, c.machine.Reaches (c.Runs may) u t ∧
      ((c.program.Placed t.cpu.pc rest ∧ t.cpu.sp = s.cpu.sp ∧ inv 0 t.cpu.bank t.env) ∨
        0 < k ∧ head k t) := by
    rintro k u ⟨small, bc, placed, stack, here⟩
    obtain ⟨may_run, kept, next⟩ := turn k u bc here
    obtain ⟨ran, later⟩ := reaches_block body _ block placed.2 may_run
    obtain ⟨t, counted, env, sp, bank, outcome⟩ := counts.counted small (kept.trans bc) later
    rw [← env, ← bank] at next
    rw [run_sp block, stack] at sp
    refine ⟨t, ran.trans counted, ?_⟩
    rcases outcome with ⟨rfl, after⟩ | ⟨more, again⟩
    · exact .inl ⟨after, sp, next⟩
    · refine .inr ⟨more, Nat.lt_of_succ_lt small, by rw [bank], ?_, sp, next⟩
      rw [again]
      exact placed.at_label
  exact Machine.Reaches.countdown go_on ⟨small, bc, placed, rfl, start⟩

/-- What a scan stops at: the least cell that does not hold D, HL its address and A its byte. -/
structure Mismatch (value : Word → Byte) (first count : Nat) (t : State Env) : Prop where
  above : first ≤ t.cpu.bank.hl.toNat
  below : t.cpu.bank.hl.toNat < first + count
  least : ∀ cell : Word, first ≤ cell.toNat → cell < t.cpu.bank.hl → value cell = hi t.cpu.bank.de
  differs : value t.cpu.bank.hl ≠ hi t.cpu.bank.de
  actual : t.cpu.af.a = value t.cpu.bank.hl

theorem exec_cp (s : State Env) (src : Operand) : c.exec (.arith .cp src) s =
    { s with cpu := { s.next (.arith .cp src : Instr L) with
        af := ⟨s.cpu.af.a, subFlags s.cpu.af.a (c.value s src)⟩ } } := rfl

theorem exec_inc_hl (documented : ∀ pc, c.alu pc = .documented) (s : State Env) :
    c.exec (.inc .hl) s = { s with cpu := { s.next (.inc .hl : Instr L) with
        bank := { s.cpu.bank with hl := s.cpu.bank.hl + 1#16 } } } := by
  simp [exec, documented, Alu.documented, Cpu.get16, Cpu.set16, State.next]

/-- One turn of a scan compares the byte that it gets with D. -/
theorem Counts.compared (counts : c.Counts may loop) {get : Instr L} {byte : Byte} {env : Env}
    (quiet : ∀ i, .op i ∈ (scanTurn get fail).tail → ∀ s, may i s)
    (straight : get.straight = true) (may_get : may get s)
    (bank : (c.exec get s).cpu.bank = s.cpu.bank) (gets : (c.exec get s).cpu.af.a = byte)
    (after : (c.exec get s).env = env)
    (placed : c.program.Placed s.cpu.pc (scanTurn get fail ++ rest)) :
    ∃ t, c.machine.Reaches (c.Runs may) s t ∧ t.env = env ∧ t.cpu.sp = s.cpu.sp ∧
      (byte ≠ hi s.cpu.bank.de ∧ t.cpu.pc = c.program.addr fail ∧ t.cpu.bank = s.cpu.bank ∧
          t.cpu.af.a = byte ∨
        byte = hi s.cpu.bank.de ∧ c.program.Placed t.cpu.pc rest ∧
          t.cpu.bank = { s.cpu.bank with hl := s.cpu.bank.hl + 1#16 }) := by
  have block : Z80.straight [.op get, .op (.arith .cp (.reg .d))] = true := by
    rw [Z80.straight, straight]
    rfl
  obtain ⟨ran, later⟩ := reaches_block (c := c) _
    (.op (.jp (some .nz) fail) :: .op (.inc .hl) :: rest) block placed
    ⟨may_get, quiet _ (by simp [scanTurn]) _, trivial⟩
  obtain ⟨t, jumped, env', cpu, outcome⟩ := reaches_jump (.inl rfl) later
    (quiet _ (by simp [scanTurn]) _)
  have state : c.run [.op get, .op (.arith .cp (.reg .d))] s =
      { (c.exec get s) with cpu := { (c.exec get s).next (.arith .cp (.reg .d) : Instr L) with
          af := ⟨byte, subFlags byte (hi s.cpu.bank.de)⟩ } } := by
    rw [run, run, run, exec_cp, gets, value, Cpu.get, bank]
  rw [state] at env' cpu outcome
  have same : t.cpu.bank = s.cpu.bank := by rw [cpu]; exact bank
  have stack : t.cpu.sp = s.cpu.sp := by rw [cpu]; exact exec_sp straight s
  have zero : (subFlags byte (hi s.cpu.bank.de)).takes (some .nz) = true ↔
      byte ≠ hi s.cpu.bank.de := by
    rw [Flags.takes, Flags.holds, Bool.not_eq_true', ← Bool.not_eq_true, subFlags_zero]
  rcases outcome with ⟨taken, failed⟩ | ⟨taken, later'⟩
  · refine ⟨t, ran.trans jumped, env'.trans after, stack, .inl ⟨zero.mp taken, failed, same, ?_⟩⟩
    rw [cpu]
  · have equal : byte = hi s.cpu.bank.de := by
      rw [← Bool.not_eq_true, zero, not_not] at taken
      exact taken
    obtain ⟨moved, later''⟩ := reaches_block [.op (.inc .hl)] rest rfl later'
      ⟨quiet _ (by simp [scanTurn]) _, trivial⟩
    refine ⟨_, (ran.trans jumped).trans moved, ?_, ?_, .inr ⟨equal, later'', ?_⟩⟩
    · rw [run, run, exec_inc_hl counts.documented]
      exact env'.trans after
    · rw [run_sp rfl]
      exact stack
    · rw [run, run, exec_inc_hl counts.documented, same]

/-- The cells below the one that BC and HL have got to hold D. -/
structure Scanned (value : Word → Byte) (ready : Word → Env → Prop) (d : Byte) (first count k : Nat)
    (s : State Env) : Prop where
  left : k ≤ count
  bc : s.cpu.bank.bc = BitVec.ofNat 16 k
  hl : s.cpu.bank.hl = BitVec.ofNat 16 (first + count - k)
  de : hi s.cpu.bank.de = d
  ready : ready s.cpu.bank.hl s.env
  passed : ∀ cell : Word, first ≤ cell.toNat → cell.toNat + k < first + count → value cell = d

/-- A scan goes through all the cells, or stops at the first that does not hold D. -/
theorem Counts.scanned (counts : c.Counts may loop) {get : Instr L}
    (quiet : ∀ i, .op i ∈ (scanTurn get fail).tail → ∀ s, may i s)
    (straight : get.straight = true) {first count : Nat} (inside : first + count ≤ 65536)
    {value : Word → Byte} {ready : Word → Env → Prop}
    (gets : ∀ s : State Env, first ≤ s.cpu.bank.hl.toNat → s.cpu.bank.hl.toNat < first + count →
      s.cpu.bank.hl + s.cpu.bank.bc = BitVec.ofNat 16 (first + count) →
      ready s.cpu.bank.hl s.env →
      may get s ∧ (c.exec get s).cpu.bank = s.cpu.bank ∧
        (c.exec get s).cpu.af.a = value s.cpu.bank.hl ∧
        ready (s.cpu.bank.hl + 1#16) (c.exec get s).env)
    {d : Byte} {k : Nat} (small : k + 1 < 65536)
    (start : Scanned value ready d first count (k + 1) s)
    (placed : c.program.Placed s.cpu.pc
      (.label loop :: (scanTurn get fail ++ (countDown loop ++ rest)))) :
    ∃ t, c.machine.Reaches (c.Runs may) s t ∧ hi t.cpu.bank.de = d ∧ t.cpu.sp = s.cpu.sp ∧
      (c.program.Placed t.cpu.pc rest ∧ Scanned value ready d first count 0 t ∨
        t.cpu.pc = c.program.addr fail ∧ Mismatch value first count t) := by
  let head (k : Nat) (u : State Env) : Prop := k < 65536 ∧ Scanned value ready d first count k u ∧
    u.cpu.sp = s.cpu.sp ∧
    c.program.Placed u.cpu.pc (.label loop :: (scanTurn get fail ++ (countDown loop ++ rest)))
  have go_on : ∀ k u, head (k + 1) u → ∃ t, c.machine.Reaches (c.Runs may) u t ∧
      ((hi t.cpu.bank.de = d ∧ t.cpu.sp = s.cpu.sp ∧
        (c.program.Placed t.cpu.pc rest ∧ Scanned value ready d first count 0 t ∨
          t.cpu.pc = c.program.addr fail ∧ Mismatch value first count t)) ∨ 0 < k ∧ head k t) := by
    rintro k u ⟨small, h, stack, placed⟩
    have left := h.left
    have at_cell : u.cpu.bank.hl.toNat = first + count - (k + 1) := by
      rw [h.hl, BitVec.toNat_ofNat]
      omega
    have sum : u.cpu.bank.hl + u.cpu.bank.bc = BitVec.ofNat 16 (first + count) := by
      rw [h.hl, h.bc, ← BitVec.ofNat_add, Nat.sub_add_cancel (by omega)]
    obtain ⟨may_get, bank, got, next⟩ := gets u (by omega) (by omega) sum h.ready
    obtain ⟨t, ran, env, sp, ⟨differs, failed, same, a⟩ | ⟨equal, later, moved⟩⟩ :=
      counts.compared quiet straight may_get bank got rfl placed.2
    · refine ⟨t, ran, .inl ⟨by rw [same]; exact h.de, sp.trans stack, .inr ⟨failed, ?_⟩⟩⟩
      exact
        { above := by rw [same]; omega
          below := by rw [same]; omega
          least := fun cell above lower => by
            rw [same] at lower ⊢
            rw [h.de]
            exact h.passed cell above (by rw [BitVec.lt_def] at lower; omega)
          differs := by rw [same]; exact differs
          actual := by rw [same]; exact a }
    · have bc : t.cpu.bank.bc = BitVec.ofNat 16 (k + 1) := by rw [moved]; exact h.bc
      obtain ⟨v, counted, env', sp', bank', outcome⟩ := counts.counted small bc later
      have scanned : Scanned value ready d first count k v :=
        { left := by omega
          bc := by rw [bank']
          hl := by
            rw [bank', moved]
            show u.cpu.bank.hl + 1#16 = _
            rw [h.hl, ← BitVec.ofNat_add]
            exact congrArg _ (by omega)
          de := by rw [bank', moved]; exact h.de
          ready := by
            rw [bank', moved, env', env]
            exact next
          passed := fun cell above lower => by
            rcases Nat.lt_or_ge (cell.toNat + (k + 1)) (first + count) with earlier | here
            · exact h.passed cell above earlier
            · have this : cell = u.cpu.bank.hl := BitVec.eq_of_toNat_eq (by omega)
              rw [this, equal, h.de] }
      have stack' : v.cpu.sp = s.cpu.sp := (sp'.trans sp).trans stack
      refine ⟨v, ran.trans counted, ?_⟩
      rcases outcome with ⟨rfl, after⟩ | ⟨more, again⟩
      · exact .inl ⟨scanned.de, stack', .inl ⟨after, scanned⟩⟩
      · refine .inr ⟨more, Nat.lt_of_succ_lt small, scanned, stack', ?_⟩
        rw [again]
        exact placed.at_label
  exact Machine.Reaches.countdown go_on ⟨small, start, rfl, placed⟩

end Computer

end MsxPulse.Library.Z80
