import MsxPulse.Library.Pio

/-!
# State machines that only watch

A program of waits, jumps on a pin, idle slots and full-word samples turns no pin
and takes no word. All it remembers between two clocks is its position, so its
state machine is an automaton over positions in front of a receive FIFO.
-/

namespace MsxPulse.Library.Pio

/-- Where a state machine is: an address and the delay slots left there. -/
structure Position where
  pc : Nat
  delay : Nat
  deriving DecidableEq

/-- Instructions that remember nothing from one sample to the next. -/
def Op.Watches : Op → Prop
  | .wait _ _ => True
  | .jmpPin _ => True
  | .nop => True
  | .input source bits => source = .pins ∧ bits = 32
  | _ => False

instance : ∀ op : Op, Decidable op.Watches
  | .wait _ _ | .jmpPin _ | .nop => .isTrue trivial
  | .input _ _ => inferInstanceAs (Decidable (_ ∧ _))
  | .output _ _ | .pullBlock | .mov _ _ | .setPins _ => .isFalse id

/-- A running state machine in this position, between two samples. -/
structure Sm.At (s : Sm) (pos : Position) : Prop where
  enabled : s.enabled = true
  pc : s.pc = pos.pc
  delay : s.delay = pos.delay
  isrCount : s.isrCount = 0

/-- Taking a word from the FIFO does not disturb the program. -/
theorem Sm.At.take {s : Sm} {pos : Position} (at_ : s.At pos) (rest : List Word) :
    { s with rx := rest }.At pos :=
  ⟨at_.enabled, at_.pc, at_.delay, at_.isrCount⟩

namespace Program

variable (p : Program)

/-- A program that only watches, with autopush. -/
structure Watcher : Prop where
  autopush : p.autopush = true
  code : ∀ i ∈ p.code, i.side = none ∧ i.op.Watches

instance : Decidable p.Watcher :=
  decidable_of_iff (p.autopush = true ∧ ∀ i ∈ p.code, i.side = none ∧ i.op.Watches)
    ⟨fun ⟨autopush, code⟩ => ⟨autopush, code⟩, fun w => ⟨w.autopush, w.code⟩⟩

/-- The position after an instruction that completes. -/
def after (i : Instr) (pos : Position) : Position :=
  ⟨if pos.pc = p.wrap then p.wrapTarget else pos.pc + 1, i.delay⟩

/-- Where an instruction leads at these levels. -/
def follow (gpio : BitVec 64) (i : Instr) (pos : Position) : Position :=
  match i.op with
  | .jmpPin target => if gpio.getLsbD p.jmpPin then ⟨target, i.delay⟩ else p.after i pos
  | .wait level pin => if gpio.getLsbD pin = level then p.after i pos else pos
  | _ => p.after i pos

/-- Where a clock with these levels leads, when a sample finds room. -/
def move (gpio : BitVec 64) (pos : Position) : Position :=
  if pos.delay = 0 then (p.code[pos.pc]?).elim pos fun i => p.follow gpio i pos
  else { pos with delay := pos.delay - 1 }

/-- The instruction of this position samples the pins now. -/
def Sampling (pos : Position) : Prop :=
  pos.delay = 0 ∧ (p.code[pos.pc]?).map Instr.op = some (.input .pins 32)

instance (pos : Position) : Decidable (p.Sampling pos) := inferInstanceAs (Decidable (_ ∧ _))

/-- The 32 pins from the input base up. -/
def sample (gpio : BitVec 64) : Word := (gpio >>> p.inBase).setWidth 32

def samples (gpio : BitVec 64) (pos : Position) : List Word :=
  if p.Sampling pos then [p.sample gpio] else []

theorem lowBits_full (word : Word) : lowBits word 32 = word := by
  simp [lowBits]

variable {p} {pos : Position} {s : Sm}

theorem advance_at (at_ : s.At pos) (i : Instr) : (p.advance i s).At (p.after i pos) where
  enabled := at_.enabled
  pc := by simp only [Program.advance, after, at_.pc]
  delay := rfl
  isrCount := at_.isrCount

/-- One instruction of a watching program. -/
theorem Watcher.exec (w : p.Watcher) (at_ : s.At pos) (ready : pos.delay = 0) {i : Instr}
    (fetch : p.code[pos.pc]? = some i) (gpio : BitVec 64)
    (room : p.Sampling pos → s.rx.length < fifoDepth) :
    (p.exec gpio i s).1.At (p.follow gpio i pos) ∧
      (p.exec gpio i s).1.rx = s.rx ++ p.samples gpio pos ∧
      (p.exec gpio i s).1.level = s.level ∧ (p.exec gpio i s).1.dir = s.dir := by
  obtain ⟨-, watches⟩ := w.code i (List.mem_of_getElem? fetch)
  have silent : i.op ≠ .input .pins 32 → s.rx = s.rx ++ p.samples gpio pos := by
    intro other
    have none : ¬ p.Sampling pos := by
      rintro ⟨-, here⟩
      rw [fetch] at here
      exact other (Option.some.inj here)
    rw [samples, if_neg none, List.append_nil]
  cases op : i.op with
  | jmpPin target =>
    have rx := silent (by rw [op]; simp)
    simp only [Program.exec, follow, op]
    by_cases high : gpio.getLsbD p.jmpPin = true
    · rw [if_pos high, if_pos high]
      exact ⟨⟨at_.enabled, rfl, rfl, at_.isrCount⟩, rx, rfl, rfl⟩
    · rw [if_neg high, if_neg high]
      exact ⟨advance_at at_ i, rx, rfl, rfl⟩
  | wait level pin =>
    have rx := silent (by rw [op]; simp)
    simp only [Program.exec, follow, op]
    by_cases met : gpio.getLsbD pin = level
    · rw [if_pos met, if_pos met]
      exact ⟨advance_at at_ i, rx, rfl, rfl⟩
    · rw [if_neg met, if_neg met]
      exact ⟨at_, rx, rfl, rfl⟩
  | nop =>
    have rx := silent (by rw [op]; simp)
    simp only [Program.exec, follow, op]
    exact ⟨advance_at at_ i, rx, rfl, rfl⟩
  | input source bits =>
    rw [op] at watches
    obtain ⟨rfl, rfl⟩ := watches
    have sampling : p.Sampling pos := ⟨ready, by rw [fetch, Option.map_some, op]⟩
    -- shifting by all 32 places leaves nothing of the old contents
    have word : (s.isr <<< 32) ||| lowBits (p.inValue gpio s .pins) 32 = p.sample gpio := by
      have gone : s.isr <<< 32 = 0#32 := by simp
      rw [gone, lowBits_full]
      exact BitVec.zero_or
    have full : 32 ≤ s.isrCount + 32 := Nat.le_add_left _ _
    simp only [Program.exec, follow, op, word, w.autopush, full, and_self, if_true,
      if_pos (room sampling)]
    refine ⟨⟨at_.enabled, ?_, rfl, rfl⟩, ?_, rfl, rfl⟩
    · simp only [Program.advance, after, at_.pc]
    · show s.rx ++ [p.sample gpio] = s.rx ++ p.samples gpio pos
      rw [samples, if_pos sampling]
  | output dest bits => rw [op] at watches; exact watches.elim
  | pullBlock => rw [op] at watches; exact watches.elim
  | mov dest source => rw [op] at watches; exact watches.elim
  | setPins value => rw [op] at watches; exact watches.elim

/-- One clock of a watching program: the automaton moves, a sample is queued, and
no pin changes. -/
theorem Watcher.clock (w : p.Watcher) (at_ : s.At pos) (gpio : BitVec 64)
    (room : p.Sampling pos → s.rx.length < fifoDepth) :
    (p.clock gpio s).1.At (p.move gpio pos) ∧
      (p.clock gpio s).1.rx = s.rx ++ p.samples gpio pos ∧
      (p.clock gpio s).1.level = s.level ∧ (p.clock gpio s).1.dir = s.dir := by
  by_cases ready : pos.delay = 0
  · cases fetch : p.code[pos.pc]? with
    | some i =>
      have plain : p.sideSet i s = s := by
        obtain ⟨side, -⟩ := w.code i (List.mem_of_getElem? fetch)
        simp only [sideSet, side]
      rw [p.clock_exec gpio at_.enabled (at_.delay.trans ready) (at_.pc ▸ fetch), plain, move,
        if_pos ready, fetch]
      exact w.exec at_ ready fetch gpio room
    | none =>
      have stays : p.clock gpio s = (s, []) := by
        simp [Program.clock, at_.enabled, at_.delay, ready, at_.pc, fetch]
      have none : ¬ p.Sampling pos := by
        rintro ⟨-, here⟩
        rw [fetch] at here
        simp at here
      rw [stays, move, if_pos ready, fetch, samples, if_neg none, List.append_nil]
      exact ⟨at_, rfl, rfl, rfl⟩
  · have waits : s.delay ≠ 0 := by rw [at_.delay]; exact ready
    have none : ¬ p.Sampling pos := fun here => ready here.1
    rw [p.clock_delayed gpio at_.enabled waits, move, if_neg ready, samples, if_neg none,
      List.append_nil]
    exact ⟨⟨at_.enabled, at_.pc, congrArg (· - 1) at_.delay, at_.isrCount⟩, rfl, rfl, rfl⟩

/-! ## A watching program on a stream of levels -/

section Stream

variable (p) (pins : Nat → BitVec 64) (start : Position)

/-- The position before clock `n`, when no sample has to wait. -/
def positionAt : Nat → Position
  | 0 => start
  | n + 1 => p.move (pins n) (positionAt n)

/-- What the first `n` clocks sample. -/
def sampled (n : Nat) : List Word :=
  (List.range n).flatMap fun k => p.samples (pins k) (p.positionAt pins start k)

theorem sampled_succ (n : Nat) :
    p.sampled pins start (n + 1) =
      p.sampled pins start n ++ p.samples (pins n) (p.positionAt pins start n) := by
  simp [sampled, List.range_succ]

/-- The program samples at exactly these clocks. -/
def SamplesAt (clocks : Nat → Prop) : Prop :=
  ∀ n, p.Sampling (p.positionAt pins start n) ↔ clocks n

variable {p pins start}

theorem SamplesAt.sampled {clocks : Nat → Prop} [DecidablePred clocks]
    (at_ : p.SamplesAt pins start clocks) (n : Nat) :
    p.sampled pins start n = ((List.range n).filter (clocks ·)).map fun k => p.sample (pins k) := by
  induction n with
  | zero => rfl
  | succ n ih =>
    rw [sampled_succ, ih, List.range_succ, List.filter_append, List.map_append, samples]
    by_cases now : clocks n
    · simp [now, (at_ n).mpr now]
    · have quiet : ¬ p.Sampling (p.positionAt pins start n) := fun here => now ((at_ n).mp here)
      simp [now, quiet]

variable (p pins start)

/-- After `now` clocks, the words taken from the FIFO so far and those still in it
are all that was sampled. -/
structure Fed (now : Nat) (s : Sm) (taken : List Word) : Prop where
  at_ : s.At (p.positionAt pins start now)
  conserved : taken ++ s.rx = p.sampled pins start now
  depth : s.rx.length ≤ fifoDepth

/-- The FIFO has room for the sample that is due. -/
def Room (s : Sm) : Prop := p.Sampling ⟨s.pc, s.delay⟩ → s.rx.length < fifoDepth

instance (s : Sm) : Decidable (p.Room s) := inferInstanceAs (Decidable (_ → _))

variable {p pins start} {now : Nat} {s : Sm} {taken : List Word}

theorem Fed.clock (fed : p.Fed pins start now s taken) (w : p.Watcher) (room : p.Room s) :
    p.Fed pins start (now + 1) (p.clock (pins now) s).1 taken := by
  have here : (⟨s.pc, s.delay⟩ : Position) = p.positionAt pins start now := by
    rw [fed.at_.pc, fed.at_.delay]
  rw [Room, here] at room
  obtain ⟨at_, rx, -⟩ := w.clock fed.at_ (pins now) room
  refine ⟨at_, ?_, ?_⟩
  · rw [rx, ← List.append_assoc, fed.conserved, sampled_succ]
  · rw [rx, List.length_append, samples]
    by_cases due : p.Sampling (p.positionAt pins start now)
    · rw [if_pos due]
      exact room due
    · rw [if_neg due]
      exact fed.depth

theorem Fed.take (fed : p.Fed pins start now s taken) {word : Word} {rest : List Word}
    (rx : s.rx = word :: rest) :
    p.Fed pins start now { s with rx := rest } (taken ++ [word]) := by
  refine ⟨fed.at_.take rest, ?_, ?_⟩
  · rw [← fed.conserved, rx, List.append_assoc]
    rfl
  · have depth := fed.depth
    rw [rx] at depth
    exact Nat.le_of_succ_le depth

theorem fed_start (at_ : s.At start) (empty : s.rx = []) : p.Fed pins start 0 s [] :=
  ⟨at_, by rw [empty]; rfl, by rw [empty]; exact Nat.zero_le _⟩

end Stream

end Program

end MsxPulse.Library.Pio
