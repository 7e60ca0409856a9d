import MsxPulse.Firmware.BootDiag.Anomalies

/-!
# One sample of the bus (bus_probe_sample_once)

CLOCK is counted by a PWM slice that wraps after 0xFFFF and is read once, when the gate
closes. The count is therefore known only modulo 65536, and a clock that is far too fast
can come out as a good one.
-/

namespace MsxPulse.Firmware

open Library

/-- A PWM slice that counts the rising edges of its B input. -/
structure PwmSlice where
  enabled : Bool
  wrap : U16
  counter : U16

namespace PwmSlice

def setCounter (s : PwmSlice) (counter : U16) : PwmSlice := { s with counter }

def setEnabled (s : PwmSlice) (enabled : Bool) : PwmSlice := { s with enabled }

def edge (s : PwmSlice) : PwmSlice :=
  if s.enabled then s.setCounter (if s.counter = s.wrap then 0#16 else s.counter + 1#16) else s

def edges : Nat → PwmSlice → PwmSlice
  | 0, s => s
  | n + 1, s => s.edge.edges n

@[simp] theorem setCounter_enabled (s : PwmSlice) (counter : U16) :
    (s.setCounter counter).enabled = s.enabled := rfl

@[simp] theorem setCounter_wrap (s : PwmSlice) (counter : U16) :
    (s.setCounter counter).wrap = s.wrap := rfl

@[simp] theorem setEnabled_wrap (s : PwmSlice) (enabled : Bool) :
    (s.setEnabled enabled).wrap = s.wrap := rfl

@[simp] theorem edge_wrap (s : PwmSlice) : s.edge.wrap = s.wrap := by
  unfold edge
  split <;> rfl

@[simp] theorem edges_wrap (n : Nat) (s : PwmSlice) : (s.edges n).wrap = s.wrap := by
  induction n generalizing s with
  | zero => rfl
  | succ n ih => exact (ih s.edge).trans s.edge_wrap

theorem edge_eq {s : PwmSlice} (on : s.enabled = true) (full : s.wrap = 0xFFFF#16) :
    s.edge = s.setCounter (s.counter + 1#16) := by
  rw [edge, if_pos on, full]
  split
  next top => rw [top]; rfl
  next => rfl

/-- With the wrap at 0xFFFF the counter is the number of edges modulo 65536. -/
theorem edges_eq {s : PwmSlice} (on : s.enabled = true) (full : s.wrap = 0xFFFF#16) (n : Nat) :
    s.edges n = s.setCounter (s.counter + BitVec.ofNat 16 n) := by
  induction n generalizing s with
  | zero => simp [edges, setCounter]
  | succ n ih =>
    rw [edges, edge_eq on full, ih (by simpa using on) (by simpa using full)]
    simp only [setCounter, PwmSlice.mk.injEq, true_and]
    rw [Nat.add_comm n 1, BitVec.ofNat_add 1 n, BitVec.add_assoc]

end PwmSlice

namespace BusProbe

def bpWindowUs : U32 := 20000#32

def bpClkGateUs : U32 := 10000#32

/-- What one turn of the sampling loop meets: the rising edges of CLOCK since the turn
before, the time at the loop's condition, both GPIO words and the time at the gate. -/
structure Turn where
  edges : Nat
  windowUs : U32
  gpioIn : U32
  gpioHiIn : U32
  gateUs : U32

/-- Everything that a call of `bus_probe_sample_once` reads. -/
structure Sample where
  clkT0 : U32
  t0 : U32
  turns : List Turn
  cartDriving : Bool
  nowMs : U32

/-- The slice, and the locals of `bus_probe_sample_once`. -/
structure Sampling where
  slice : PwmSlice
  seenHi : U32
  seenLo : U32
  rHi : Bool
  rLo : Bool
  edges : U32
  gateDone : Bool

/-- `bus_probe_init` -/
def init : PwmSlice := ⟨false, 0xFFFF#16, 0#16⟩

namespace Turn

/-- The loop's condition. -/
def inWindow (t0 : U32) (t : Turn) : Bool := decide (t.windowUs - t0 < bpWindowUs)

/-- `(time_us_32() - clk_t0) >= BP_CLK_GATE_US` -/
def gateOver (clkT0 : U32) (t : Turn) : Bool := decide (t.gateUs - clkT0 ≥ bpClkGateUs)

end Turn

namespace Sampling

/-- At the head of the loop. -/
def start (slice : PwmSlice) : Sampling where
  slice := (slice.setCounter 0#16).setEnabled true
  seenHi := 0#32
  seenLo := 0#32
  rHi := false
  rLo := false
  edges := 0#32
  gateDone := false

def count (s : Sampling) (n : Nat) : Sampling := { s with slice := s.slice.edges n }

def closeGate (s : Sampling) : Sampling :=
  { s with
    slice := s.slice.setEnabled false
    edges := s.slice.counter.setWidth 32
    gateDone := true }

/-- The body of the loop. -/
def turn (clkT0 : U32) (s : Sampling) (t : Turn) : Sampling :=
  let r := t.gpioHiIn &&& 1#32 != 0#32
  let s := { s with
    seenHi := s.seenHi ||| t.gpioIn
    seenLo := s.seenLo ||| ~~~t.gpioIn
    rHi := s.rHi || r
    rLo := s.rLo || !r }
  if !s.gateDone && t.gateOver clkT0 then s.closeGate else s

def loop (clkT0 t0 : U32) : Sampling → List Turn → Sampling
  | s, [] => s
  | s, t :: turns =>
    let s := s.count t.edges
    if t.inWindow t0 then (s.turn clkT0 t).loop clkT0 t0 turns else s

/-- After the loop. -/
def finish (s : Sampling) : Sampling := if s.gateDone then s else s.closeGate

end Sampling

/-- The edges that the slice is enabled for: up to the turn that closes the gate, or the one
that leaves the loop. -/
def gateEdges (clkT0 t0 : U32) : List Turn → Nat
  | [] => 0
  | t :: turns =>
    t.edges + if t.inWindow t0 && !t.gateOver clkT0 then gateEdges clkT0 t0 turns else 0

namespace Sample

/-- The rising edges of CLOCK in the gate. -/
def edges (c : Sample) : Nat := gateEdges c.clkT0 c.t0 c.turns

end Sample

/-- `bus_probe_sample_once`: the slice it leaves, and the snapshot it publishes. -/
def sampleOnce (slice : PwmSlice) (c : Sample) : PwmSlice × BusProbeSnapshot :=
  let s := ((Sampling.start slice).loop c.clkT0 c.t0 c.turns).finish
  (s.slice, { classify s.seenHi s.seenLo unpublished with
    clkHz := edgesToHz s.edges bpClkGateUs
    reset := resetStatus s.rHi s.rLo c.cartDriving
    timestampMs := c.nowMs })

/-- Core 1 takes one sample after another. -/
def machine : Machine PwmSlice Sample BusProbeSnapshot where
  step slice c := let next := sampleOnce slice c; (next.1, [next.2])

/-! ## The count through the wrap -/

namespace Sampling

variable {s : Sampling}

theorem turn_slice (clkT0 : U32) (s : Sampling) (t : Turn) :
    (s.turn clkT0 t).slice.wrap = s.slice.wrap := by
  unfold turn
  simp only
  split <;> rfl

theorem loop_wrap (clkT0 t0 : U32) (s : Sampling) (turns : List Turn) :
    (s.loop clkT0 t0 turns).slice.wrap = s.slice.wrap := by
  induction turns generalizing s with
  | nil => rfl
  | cons t turns ih =>
    rw [loop]
    split
    · rw [ih, turn_slice]
      exact s.slice.edges_wrap t.edges
    · exact s.slice.edges_wrap t.edges

theorem finish_wrap (s : Sampling) : s.finish.slice.wrap = s.slice.wrap := by
  unfold finish
  split <;> rfl

/-- Once the gate is closed, the count stays. -/
theorem loop_edges_of_done (clkT0 t0 : U32) (turns : List Turn) (done : s.gateDone = true) :
    (s.loop clkT0 t0 turns).gateDone = true ∧ (s.loop clkT0 t0 turns).edges = s.edges := by
  induction turns generalizing s with
  | nil => exact ⟨done, rfl⟩
  | cons t turns ih =>
    rw [loop]
    split
    · have kept : ((s.count t.edges).turn clkT0 t).gateDone = true ∧
          ((s.count t.edges).turn clkT0 t).edges = s.edges := by
        simp [turn, count, done]
      exact ⟨(ih kept.1).1, (ih kept.1).2.trans kept.2⟩
    · exact ⟨done, rfl⟩

/-- The gate is open and the slice counts. -/
structure Open (s : Sampling) : Prop where
  gate : s.gateDone = false
  on : s.slice.enabled = true
  wrap : s.slice.wrap = 0xFFFF#16

theorem Open.finish_edges (h : s.Open) :
    s.finish.edges = s.slice.counter.setWidth 32 := by
  simp [finish, h.gate, closeGate]

theorem finish_edges_of_done (done : s.gateDone = true) : s.finish = s := by
  simp [finish, done]

/-- What is counted is what the slice held and the edges of the gate, modulo 65536. -/
theorem Open.loop_edges (h : s.Open) (clkT0 t0 : U32) (turns : List Turn) :
    (s.loop clkT0 t0 turns).finish.edges =
      (s.slice.counter + BitVec.ofNat 16 (gateEdges clkT0 t0 turns)).setWidth 32 := by
  induction turns generalizing s with
  | nil => simp [loop, gateEdges, h.finish_edges]
  | cons t turns ih =>
    have counted := PwmSlice.edges_eq h.on h.wrap t.edges
    have still : (s.count t.edges).Open :=
      ⟨h.gate, by rw [count, counted]; exact h.on, by rw [count, counted]; exact h.wrap⟩
    have held : (s.count t.edges).slice.counter =
        s.slice.counter + BitVec.ofNat 16 t.edges := by
      rw [count, counted]
      rfl
    rw [loop, gateEdges]
    cases window : t.inWindow t0 with
    | false => simp [still.finish_edges, held]
    | true =>
      cases late : t.gateOver clkT0 with
      | true =>
        -- this turn reads the slice, and the rest of the window adds nothing
        have closed : ((s.count t.edges).turn clkT0 t).gateDone = true ∧
            ((s.count t.edges).turn clkT0 t).edges =
              (s.count t.edges).slice.counter.setWidth 32 := by
          simp [turn, late, still.gate, closeGate]
        obtain ⟨done, kept⟩ := loop_edges_of_done clkT0 t0 turns closed.1
        simp [finish_edges_of_done done, kept, closed.2, held]
      | false =>
        have next : ((s.count t.edges).turn clkT0 t).Open ∧
            ((s.count t.edges).turn clkT0 t).slice = (s.count t.edges).slice := by
          have same : ((s.count t.edges).turn clkT0 t).slice = (s.count t.edges).slice := by
            simp [turn, late]
          exact ⟨⟨by simp [turn, late, still.gate], by rw [same, still.on],
            by rw [same, still.wrap]⟩, same⟩
        simp only [if_true, Bool.not_false, Bool.and_self]
        rw [ih next.1, next.2, held, BitVec.add_assoc, ← BitVec.ofNat_add]

theorem start_open {slice : PwmSlice} (wrap : slice.wrap = 0xFFFF#16) :
    (start slice).Open := ⟨rfl, rfl, wrap⟩

end Sampling

theorem sampleOnce_wrap (slice : PwmSlice) (c : Sample) :
    (sampleOnce slice c).1.wrap = slice.wrap := by
  show (Sampling.finish _).slice.wrap = _
  rw [Sampling.finish_wrap, Sampling.loop_wrap]
  rfl

theorem final_wrap (earlier : List Sample) : (machine.final init earlier).wrap = 0xFFFF#16 :=
  machine.final_preserved (·.wrap = 0xFFFF#16)
    (fun slice c full => (sampleOnce_wrap slice c).trans full) rfl earlier

theorem edgesToHz_gate (n : Nat) :
    (edgesToHz ((BitVec.ofNat 16 n).setWidth 32) bpClkGateUs).toNat = n % 65536 * 100 := by
  have gate : (BitVec.setWidth 64 bpClkGateUs).toNat = 10000 := rfl
  have million : (1000000#64).toNat = 1000000 := rfl
  have held : (((BitVec.ofNat 16 n).setWidth 32).setWidth 64).toNat = n % 65536 := by
    rw [BitVec.toNat_setWidth, BitVec.toNat_setWidth, BitVec.toNat_ofNat]
    omega
  have small : n % 65536 < 65536 := Nat.mod_lt _ (by decide)
  have product : n % 65536 * 1000000 % 2 ^ 64 = n % 65536 * 1000000 :=
    Nat.mod_eq_of_lt (by omega)
  have hz : n % 65536 * 100 % 2 ^ 32 = n % 65536 * 100 := Nat.mod_eq_of_lt (by omega)
  rw [edgesToHz, if_neg (by decide), BitVec.toNat_setWidth, BitVec.toNat_udiv, BitVec.toNat_mul,
    gate, million, held, product, Nat.mul_div_assoc _ (by decide : 10000 ∣ 1000000)]
  exact hz

theorem sampleOnce_clkHz {slice : PwmSlice} (wrap : slice.wrap = 0xFFFF#16) (c : Sample) :
    (sampleOnce slice c).2.clkHz.toNat = c.edges % 65536 * 100 := by
  have zero : (Sampling.start slice).slice.counter = 0#16 := rfl
  have counted := (Sampling.start_open wrap).loop_edges c.clkT0 c.t0 c.turns
  rw [zero, BitVec.zero_add] at counted
  have hz : (sampleOnce slice c).2.clkHz =
      edgesToHz ((Sampling.start slice).loop c.clkT0 c.t0 c.turns).finish.edges bpClkGateUs := rfl
  rw [hz, counted]
  exact edgesToHz_gate c.edges

/-! ## What the flags say of the clock -/

/-- The flags of a sample, after the ones before it. -/
def sampleFlags (earlier : List Sample) (c : Sample) (events : U32) : U16 :=
  BootDiag.classifyAnomalies (sampleOnce (machine.final init earlier) c).2 events

/-- The flags say what clock has `edges` rising edges in 10 ms. -/
structure ClockVerdict (flags : U16) (edges : Nat) : Prop where
  absent : bitSet flags BootAnomaly.clkAbsent.index = true ↔ edges = 0
  outOfRange : bitSet flags BootAnomaly.clkOutOfRange.index = true ↔
    0 < edges ∧ (edges * 100 < 3000000 ∨ edges * 100 > 4000000)

theorem sampleFlags_verdict (earlier : List Sample) (c : Sample) (events : U32) :
    ClockVerdict (sampleFlags earlier c events) (c.edges % 65536) := by
  have hz := sampleOnce_clkHz (final_wrap earlier) c
  have zero : (sampleOnce (machine.final init earlier) c).2.clkHz = 0#32 ↔
      c.edges % 65536 = 0 := by
    rw [← BitVec.toNat_inj, hz, BitVec.toNat_ofNat]
    omega
  constructor
  · rw [sampleFlags, BootDiag.classifyAnomalies_bit]
    exact zero
  · rw [sampleFlags, BootDiag.classifyAnomalies_bit, BootDiag.Shows, ne_eq, zero, gt_iff_lt,
      BitVec.lt_def, BitVec.lt_def, hz, BitVec.toNat_ofNat, BitVec.toNat_ofNat]
    omega

/-- The flags of a sample tell the clock if and only if the edges of its gate fit the
counter, or what is left of them modulo 65536 is itself the count of a wrong clock. -/
theorem clockVerdict_iff (earlier : List Sample) (c : Sample) (events : U32) :
    ClockVerdict (sampleFlags earlier c events) c.edges ↔
      c.edges < 65536 ∨
        c.edges % 65536 ≠ 0 ∧ (c.edges % 65536 < 30000 ∨ c.edges % 65536 > 40000) := by
  obtain ⟨absent, outOfRange⟩ := sampleFlags_verdict earlier c events
  constructor
  · rintro ⟨absent', outOfRange'⟩
    have none := absent.symm.trans absent'
    have wrong := outOfRange.symm.trans outOfRange'
    omega
  · rintro (fits | wrong)
    · rw [Nat.mod_eq_of_lt fits] at absent outOfRange
      exact ⟨absent, outOfRange⟩
    · exact ⟨absent.trans (by omega), outOfRange.trans (by omega)⟩

/-- A sample that meets a clock of 10.1331 MHz for 10 ms. -/
def tooFast : Sample where
  clkT0 := 0#32
  t0 := 0#32
  turns := [⟨101331, 10000#32, 0#32, 1#32, 10000#32⟩]
  cartDriving := false
  nowMs := 20#32

theorem tooFast_unflagged : ¬∀ (earlier : List Sample) (c : Sample) (events : U32),
    ClockVerdict (sampleFlags earlier c events) c.edges := by
  intro verdict
  have edges : tooFast.edges = 101331 := by decide
  have flagged := (verdict [] tooFast 1#32).outOfRange.mpr (by rw [edges]; decide)
  have good := (sampleFlags_verdict [] tooFast 1#32).outOfRange.mp flagged
  rw [edges] at good
  exact absurd good (by decide)

end BusProbe

end MsxPulse.Firmware
