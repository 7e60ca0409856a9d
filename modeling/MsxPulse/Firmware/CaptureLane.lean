import MsxPulse.Firmware.BootCapture.Hardware
import MsxPulse.Firmware.CapturePrograms
import MsxPulse.Firmware.CaptureRing.ExactlyOnce
import MsxPulse.Firmware.Captures
import MsxPulse.Firmware.CartServe.Serve

/-!
# One capture, from the pins to its drain

A capture is a state machine that samples the pins, a DMA channel that moves its
FIFO into a ring, and a drain that reads the ring. An observer records, for every
time the capture was armed, what was stored and what was passed on.
-/

namespace MsxPulse.Firmware

open Library Library.Pio

/-- What happened to a capture since it was armed. -/
structure PassRecord where
  /-- The clock at which the capture was armed. -/
  armedAt : Nat
  /-- How many clocks its state machine has run since. -/
  clocks : Nat
  /-- The words stored in the ring. -/
  written : List U32
  /-- The words that the drains have passed on. -/
  passed : List U32
  /-- `written` and `clocks`, when a drain last began. -/
  sampled : Nat
  sampledClocks : Nat

namespace PassRecord

def fresh (now : Nat) : PassRecord := ⟨now, 0, [], [], 0, 0⟩

variable (r : PassRecord)

def clock : PassRecord := { r with clocks := r.clocks + 1 }
def store (word : U32) : PassRecord := { r with written := r.written ++ [word] }
def beginDrain : PassRecord := { r with sampled := r.written.length, sampledClocks := r.clocks }
def pass (word : U32) : PassRecord := { r with passed := r.passed ++ [word] }

/-- The clock at which the state machine stopped, or the present one. -/
def endsAt : Nat := r.armedAt + r.clocks

end PassRecord

/-- The ops of a call list on one state machine. -/
def smOps (block : PioBlock) (sm : Nat) (calls : List Call) : List SmOp :=
  calls.filterMap fun c =>
    match c.call with
    | .sm b n op => if b = block ∧ n = sm then some op else none
    | _ => none

/-- A state machine after these ops, with its program loaded at `off`. -/
def runOps (off : Nat) (ops : List SmOp) (sm : Sm) : Sm := ops.foldl (Serve.smOp · off) sm

def rearmOps (off : Nat) : List SmOp :=
  [.setEnabled false, .clearFifos, .restart, .execJmp off, .setEnabled true]

section Calls

open BootCapture

theorem bootCapture_reset_smOps (h : BootCapture.Hardware) (claimed : ¬ h.memDma < 0) :
    smOps .pio0 1 h.reset = rearmOps h.memOff ∧ smOps .pio0 2 h.reset = rearmOps h.ioOff := by
  unfold Hardware.reset
  rw [if_neg claimed]
  exact ⟨rfl, rfl⟩

theorem txnCapture_reset_smOps (h : TxnCapture.Hardware) (claimed : ¬ h.dma < 0) :
    smOps .pio1 0 h.reset = rearmOps h.off := by
  unfold TxnCapture.Hardware.reset
  rw [if_neg claimed]
  rfl

theorem bootCapture_stop_smOps (h : BootCapture.Hardware) :
    smOps .pio0 1 h.stop = [.setEnabled false] ∧ smOps .pio0 2 h.stop = [.setEnabled false] :=
  ⟨rfl, rfl⟩

theorem txnCapture_stop_smOps (h : TxnCapture.Hardware) (claimed : ¬ h.dma < 0) :
    smOps .pio1 0 h.stop = [.setEnabled false] := by
  unfold TxnCapture.Hardware.stop
  rw [if_neg claimed]
  rfl

theorem runOps_rearm (off : Nat) (sm : Sm) :
    (runOps off (rearmOps off) sm).At captureStart ∧ (runOps off (rearmOps off) sm).rx = [] :=
  ⟨⟨rfl, Nat.sub_self off, rfl, rfl⟩, rfl⟩

end Calls

/-- A capture's state machine with the observer's records, the current one apart. -/
structure Lane where
  sm : Sm
  earlier : List PassRecord
  pass : PassRecord

namespace Lane

/-- The records of all passes, in order. -/
def passes (l : Lane) : List PassRecord := l.earlier ++ [l.pass]

/-- Everything the drains have passed on. -/
def fed (l : Lane) : List U32 := l.passes.flatMap PassRecord.passed

/-- The records begin at a round's first re-arm. The ops are those of the call that arms. -/
def arm (off : Nat) (ops : List SmOp) (now : Nat) (l : Lane) : Lane :=
  { sm := runOps off ops l.sm, earlier := [], pass := .fresh now }

def rearm (off : Nat) (ops : List SmOp) (now : Nat) (l : Lane) : Lane :=
  { sm := runOps off ops l.sm, earlier := l.passes, pass := .fresh now }

def stop (off : Nat) (ops : List SmOp) (l : Lane) : Lane := { l with sm := runOps off ops l.sm }

/-- One clock of the state machine. -/
def clock (p : Program) (gpio : U64) (l : Lane) : Lane :=
  { l with
    sm := (p.clock gpio l.sm).1
    pass := if l.sm.enabled then l.pass.clock else l.pass }

/-- The channel takes the oldest word of the FIFO. -/
def store (word : U32) (rest : List U32) (l : Lane) : Lane :=
  { l with sm := { l.sm with rx := rest }, pass := l.pass.store word }

def beginDrain (l : Lane) : Lane := { l with pass := l.pass.beginDrain }
def feed (word : U32) (l : Lane) : Lane := { l with pass := l.pass.pass word }

/-- The lane's ring, as a run of its drain. -/
def ring (l : Lane) (c : RingCapture) (pc : DrainPc) : RingRun Unit where
  dma := c.dma
  cursor := c.cursor
  pc := pc
  consumer := ()
  written := l.pass.written
  sampled := l.pass.sampled
  passed := l.pass.passed

section Fed

variable (l : Lane)

theorem fed_eq : l.fed = l.earlier.flatMap PassRecord.passed ++ l.pass.passed := by
  simp [fed, passes]

variable (off : Nat) (ops : List SmOp)

@[simp] theorem fed_arm (now : Nat) : (l.arm off ops now).fed = [] := by
  rw [fed_eq]
  rfl

@[simp] theorem fed_rearm (now : Nat) : (l.rearm off ops now).fed = l.fed := by
  rw [fed_eq]
  exact List.append_nil _

@[simp] theorem fed_stop : (l.stop off ops).fed = l.fed := by
  rw [fed_eq, fed_eq]
  rfl

@[simp] theorem fed_clock (p : Program) (gpio : U64) : (l.clock p gpio).fed = l.fed := by
  rw [fed_eq, fed_eq]
  unfold Lane.clock
  cases l.sm.enabled <;> rfl

@[simp] theorem fed_store (word : U32) (rest : List U32) : (l.store word rest).fed = l.fed := by
  rw [fed_eq, fed_eq]
  rfl

@[simp] theorem fed_beginDrain : l.beginDrain.fed = l.fed := by
  rw [fed_eq, fed_eq]
  rfl

@[simp] theorem fed_feed (word : U32) : (l.feed word).fed = l.fed ++ [word] := by
  rw [fed_eq, fed_eq, List.append_assoc]
  rfl

end Fed

end Lane

/-! ## What the records tell -/

section Records

/-- The record of a pass in which every drain has ended, when `cycles armedAt n` are
the words of the cycles in `n` clocks: the drains have passed on the first of them, in
order, and when the last drain began it missed at most a FIFO of them. -/
structure PassRecord.Complete (cycles : Nat → Nat → List U32) (r : PassRecord) : Prop where
  initial : r.passed = (cycles r.armedAt r.clocks).take r.passed.length
  inside : r.sampledClocks ≤ r.clocks
  recent : (cycles r.armedAt r.sampledClocks).length ≤ r.passed.length + fifoDepth

/-- What the records of a capture tell at the end, if they begin at `begun`: passes
that do not overlap, each with the first of its cycles. -/
structure Lane.Tells (cycles : Nat → Nat → List U32) (begun now : Nat) (l : Lane) : Prop where
  complete : ∀ r ∈ l.passes, r.Complete cycles
  within : ∀ r ∈ l.passes, begun ≤ r.armedAt ∧ r.endsAt ≤ now
  ordered : l.passes.Pairwise fun r r' => r.endsAt ≤ r'.armedAt

variable (p : Program) (pins : Nat → U64) (begun : Nat)

/-- The state machine has sampled what is stored and what is still in its FIFO. -/
structure Sampled (now : Nat) (sm : Sm) (armedAt clocks : Nat) (written : List U32) : Prop where
  fed : sm.enabled = true →
    p.Fed (levelsFrom pins armedAt) captureStart clocks sm written ∧ armedAt + clocks = now
  window : armedAt + clocks ≤ now
  conserved : written ++ sm.rx = samplesFrom p pins armedAt clocks
  depth : sm.rx.length ≤ fifoDepth

/-- The records of the passes before `armedAt`, none of which overlaps another. -/
structure Kept (earlier : List PassRecord) (armedAt : Nat) : Prop where
  complete : ∀ r ∈ earlier, r.Complete (samplesFrom p pins)
  since : begun ≤ armedAt ∧ ∀ r ∈ earlier, begun ≤ r.armedAt
  before : ∀ r ∈ earlier, r.endsAt ≤ armedAt
  ordered : earlier.Pairwise fun r r' => r.endsAt ≤ r'.armedAt

/-- A capture whose records fit its state machine, its ring and the clock. -/
structure Lane.Tracked (now : Nat) (l : Lane) (c : RingCapture) (pc : DrainPc) : Prop where
  ring : (l.ring c pc).Consistent (fun _ _ => ()) ()
  sampled : Sampled p pins now l.sm l.pass.armedAt l.pass.clocks l.pass.written
  inside : l.pass.sampledClocks ≤ l.pass.clocks
  recent : (samplesFrom p pins l.pass.armedAt l.pass.sampledClocks).length ≤
    l.pass.sampled + fifoDepth
  kept : Kept p pins begun l.earlier l.pass.armedAt

variable {p pins begun} {now : Nat} {l : Lane} {c : RingCapture} {pc : DrainPc}

/-- The words passed on are the first samples of the pass. -/
theorem Lane.Tracked.initial (t : l.Tracked p pins begun now c pc) :
    l.pass.passed =
      (samplesFrom p pins l.pass.armedAt l.pass.clocks).take l.pass.passed.length := by
  have le : l.pass.passed.length ≤ l.pass.written.length := t.ring.passed_le
  rw [← t.sampled.conserved, List.take_append_of_le_length le]
  exact t.ring.inOrder

theorem Lane.Tracked.complete (t : l.Tracked p pins begun now c .out) : l.pass.Complete (samplesFrom p pins) where
  initial := t.initial
  inside := t.inside
  recent := by
    have count : l.pass.passed.length = l.pass.sampled := t.ring.positioned.1
    rw [count]
    exact t.recent

/-- The records of every pass, once no drain is under way. -/
theorem Lane.Tracked.passes_complete (t : l.Tracked p pins begun now c .out) :
    ∀ r ∈ l.passes, r.Complete (samplesFrom p pins) := by
  intro r member
  rcases List.mem_append.mp member with before | last
  · exact t.kept.complete r before
  · rw [List.mem_singleton.mp last]
    exact t.complete

/-- Passes follow one another. -/
theorem Kept.passes_ordered (k : Kept p pins begun l.earlier l.pass.armedAt) :
    l.passes.Pairwise fun r r' => r.endsAt ≤ r'.armedAt := by
  refine List.pairwise_append.mpr ⟨k.ordered, List.pairwise_singleton _ _, ?_⟩
  intro r member r' last
  rw [List.mem_singleton.mp last]
  exact k.before r member

theorem Lane.Tracked.within (t : l.Tracked p pins begun now c pc) :
    ∀ r ∈ l.passes, begun ≤ r.armedAt ∧ r.endsAt ≤ now := by
  intro r member
  rcases List.mem_append.mp member with earlier | last
  · refine ⟨t.kept.since.2 r earlier, Nat.le_trans (t.kept.before r earlier) ?_⟩
    exact Nat.le_trans (Nat.le_add_right _ _) t.sampled.window
  · rw [List.mem_singleton.mp last]
    exact ⟨t.kept.since.1, t.sampled.window⟩

theorem Lane.Tracked.tells (t : l.Tracked p pins begun now c .out) :
    l.Tells (samplesFrom p pins) begun now :=
  ⟨t.passes_complete, t.within, t.kept.passes_ordered⟩

/-! ## What each step keeps -/

theorem fresh_tracked {sm : Sm} (at_ : sm.At captureStart) (empty : sm.rx = [])
    {earlier : List PassRecord} (kept : Kept p pins begun earlier now) (r : RingCapture) :
    (⟨sm, earlier, .fresh now⟩ : Lane).Tracked p pins begun now r.reset .out := by
  have fed : p.Fed (levelsFrom pins now) captureStart 0 sm [] := Program.fed_start at_ empty
  exact
    { ring := RingRun.armed_consistent r.dma
      sampled := ⟨fun _ => ⟨fed, rfl⟩, Nat.le_refl _, fed.conserved, fed.depth⟩
      inside := Nat.le_refl _
      recent := Nat.zero_le _
      kept := kept }

theorem Lane.arm_tracked {off : Nat} {ops : List SmOp} (arms : ops = rearmOps off) (l : Lane)
    (r : RingCapture) : (l.arm off ops now).Tracked p pins now now r.reset .out := by
  subst arms
  obtain ⟨at_, empty⟩ := runOps_rearm off l.sm
  exact fresh_tracked at_ empty ⟨by simp, by simp, by simp, .nil⟩ r

theorem Lane.Tracked.rearm (t : l.Tracked p pins begun now c .out) {off : Nat} {ops : List SmOp}
    (arms : ops = rearmOps off) : (l.rearm off ops now).Tracked p pins begun now c.reset .out := by
  subst arms
  obtain ⟨at_, empty⟩ := runOps_rearm off l.sm
  have within := t.within
  refine fresh_tracked at_ empty ⟨t.passes_complete, ⟨?_, ?_⟩, ?_, t.kept.passes_ordered⟩ c
  · exact Nat.le_trans t.kept.since.1 (Nat.le_trans (Nat.le_add_right _ _) t.sampled.window)
  · exact fun r member => (within r member).1
  · exact fun r member => (within r member).2

theorem Lane.Tracked.stop (t : l.Tracked p pins begun now c pc) {off : Nat} {ops : List SmOp}
    (stops : ops = [.setEnabled false]) :
    (l.stop off ops).Tracked p pins begun now c.stop pc := by
  subst stops
  exact
    { ring := t.ring
      sampled :=
        { fed := fun on => absurd on Bool.false_ne_true
          window := t.sampled.window
          conserved := t.sampled.conserved
          depth := t.sampled.depth }
      inside := t.inside
      recent := t.recent
      kept := t.kept }

theorem Lane.clock_running (gpio : U64) (on : l.sm.enabled = true) :
    l.clock p gpio = { l with sm := (p.clock gpio l.sm).1, pass := l.pass.clock } := by
  rw [Lane.clock, if_pos on]

theorem Lane.clock_stopped (gpio : U64) (off : l.sm.enabled = false) : l.clock p gpio = l := by
  rw [Lane.clock, if_neg (by rw [off]; decide), p.clock_disabled _ off]

/-- Clocks do not matter to a capture that is stopped. -/
theorem Lane.Tracked.clock (t : l.Tracked p pins begun now c pc) (w : p.Watcher)
    (room : l.sm.enabled = true → p.Room l.sm) :
    (l.clock p (pins now)).Tracked p pins begun (now + 1) c pc := by
  cases on : l.sm.enabled with
  | true =>
    obtain ⟨fed, aligned⟩ := t.sampled.fed on
    have here : levelsFrom pins l.pass.armedAt l.pass.clocks = pins now := congrArg pins aligned
    have next := fed.clock w (room on)
    rw [here] at next
    rw [Lane.clock_running _ on]
    exact
      { ring := t.ring
        sampled :=
          { fed := fun _ => ⟨next, congrArg (· + 1) aligned⟩
            window := Nat.succ_le_succ t.sampled.window
            conserved := next.conserved
            depth := next.depth }
        inside := Nat.le_succ_of_le t.inside
        recent := t.recent
        kept := t.kept }
  | false =>
    rw [Lane.clock_stopped _ on]
    exact { t with
      sampled :=
        { fed := fun active => Wave.clash active on
          window := Nat.le_succ_of_le t.sampled.window
          conserved := t.sampled.conserved
          depth := t.sampled.depth } }

theorem Lane.Tracked.store (t : l.Tracked p pins begun now c pc) {word : U32} {rest : List U32}
    (rx : l.sm.rx = word :: rest) : (l.store word rest).Tracked p pins begun now (c.store word) pc where
  ring := t.ring.dmaWrite word
  sampled :=
    { fed := fun on => ⟨(t.sampled.fed on).1.take rx, (t.sampled.fed on).2⟩
      window := t.sampled.window
      conserved := by
        show (l.pass.written ++ [word]) ++ rest = _
        rw [List.append_assoc, List.singleton_append, ← rx]
        exact t.sampled.conserved
      depth := by
        have depth := t.sampled.depth
        rw [rx] at depth
        exact Nat.le_of_succ_le depth }
  inside := t.inside
  recent := t.recent
  kept := t.kept

theorem Lane.Tracked.beginDrain (t : l.Tracked p pins begun now c .out)
    (near : l.pass.written.length < l.pass.sampled + 4096) :
    l.beginDrain.Tracked p pins begun now c.beginDrain.1
      (.loop c.beginDrain.2.1 c.beginDrain.2.2) where
  ring := t.ring.drainBegin rfl near
  sampled := t.sampled
  inside := Nat.le_refl _
  recent := by
    show (samplesFrom p pins l.pass.armedAt l.pass.clocks).length ≤
      l.pass.written.length + fifoDepth
    rw [← t.sampled.conserved, List.length_append]
    exact Nat.add_le_add_left t.sampled.depth _
  kept := t.kept

theorem Lane.Tracked.turn {total rd : U32} (t : l.Tracked p pins begun now c (.loop total rd))
    (more : rd ≠ total) (kept : l.pass.written.length ≤ l.pass.passed.length + 4096) :
    (l.feed (c.dma.read rd)).Tracked p pins begun now c (.loop total (rd + 1#32)) where
  ring := by
    have next := t.ring.drainTurn rfl fun _ => kept
    rwa [RingRun.drainTurn, if_neg more] at next
  sampled := t.sampled
  inside := t.inside
  recent := t.recent
  kept := t.kept

theorem Lane.Tracked.endDrain {total rd : U32} (t : l.Tracked p pins begun now c (.loop total rd))
    (done : rd = total) : l.Tracked p pins begun now (c.endDrain rd) .out where
  ring := by
    have next := t.ring.drainTurn rfl fun more => absurd done more
    rwa [RingRun.drainTurn, if_pos done] at next
  sampled := t.sampled
  inside := t.inside
  recent := t.recent
  kept := t.kept

end Records

end MsxPulse.Firmware
