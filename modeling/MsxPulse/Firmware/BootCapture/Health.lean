import MsxPulse.Firmware.BootCapture
import MsxPulse.Firmware.CaptureRing.ExactlyOnce

/-!
# What the capture-health counters promise

Loss through a lapped ring cannot be seen in the write address, so the drain
watches its own cadence instead. Real time is a natural number of microseconds,
and each ring receives at most two words in each of them. A drain reads the clock
and both write addresses at one instant; its two read loops then run one after
the other, a turn at a time, while the DMA goes on writing.
-/

namespace MsxPulse.Firmware.BootCapture

open Library RingRun

/-- A decoder's results, in order. -/
def decodeInto (dec : U32 → Option BootBusEvent) (events : List BootBusEvent) (raw : U32) :
    List BootBusEvent :=
  events ++ (dec raw).toList

/-- A ring with the number of words it has received in the current microsecond. -/
structure RatedRing where
  run : RingRun (List BootBusEvent)
  burst : Nat

namespace RatedRing

def armed (dma : DmaRing) : RatedRing := ⟨.armed dma [], 0⟩

def elapse (r : RatedRing) (us : Nat) : RatedRing :=
  { r with burst := if us = 0 then r.burst else 0 }

def word (r : RatedRing) (raw : U32) : RatedRing :=
  { run := r.run.dmaWrite raw, burst := r.burst + 1 }

def rearm (r : RatedRing) : RatedRing := { r with run := .armed r.run.dma [] }

def sample (r : RatedRing) : RatedRing := { r with run := r.run.drainBegin }

def turn (r : RatedRing) (dec : U32 → Option BootBusEvent) : RatedRing :=
  { r with run := r.run.cpuStep (decodeInto dec) }

end RatedRing

/-- The statics of boot_capture.c with its two rings, under a clock. `sampleTime`
is when the last drain, or the last reset, read it. -/
structure HealthRun where
  now : Nat
  sampleTime : Nat
  watchdog : Watchdog
  mem : RatedRing
  io : RatedRing

inductive HealthEvent where
  | elapse (us : Nat)
  | memWord (raw : U32)
  | ioWord (raw : U32)
  | reset
  | drain
  | memTurn
  | ioTurn

namespace HealthRun

/-- What `boot_capture_init` leaves at time `now`. -/
def initial (now : Nat) (memDma ioDma : DmaRing) : HealthRun where
  now := now
  sampleTime := now
  watchdog := .reset
  mem := .armed memDma
  io := .armed ioDma

def machine : Machine HealthRun HealthEvent Empty where
  step
    | s, .elapse us =>
      ({ s with now := s.now + us, mem := s.mem.elapse us, io := s.io.elapse us }, [])
    | s, .memWord raw => ({ s with mem := s.mem.word raw }, [])
    | s, .ioWord raw => ({ s with io := s.io.word raw }, [])
    | s, .reset =>
      ({ s with sampleTime := s.now, watchdog := .reset, mem := s.mem.rearm, io := s.io.rearm },
        [])
    | s, .drain =>
      ({ s with
          sampleTime := s.now
          watchdog := s.watchdog.observe (BitVec.ofNat 64 s.now)
          mem := s.mem.sample
          io := s.io.sample }, [])
    | s, .memTurn => ({ s with mem := s.mem.turn decodeMem }, [])
    | s, .ioTurn => ({ s with io := s.io.turn decodeIo }, [])

/-- Core 1 is outside `boot_capture_drain`. -/
def Idle (s : HealthRun) : Prop := s.mem.run.pc = .out ∧ s.io.run.pc = .out

/-- At most two words per microsecond and ring; calls do not overlap, and the
memory loop comes before the I/O loop. -/
def Possible (s : HealthRun) : HealthEvent → Prop
  | .elapse _ => True
  | .memWord _ => s.mem.burst < 2
  | .ioWord _ => s.io.burst < 2
  | .reset => s.Idle
  | .drain => s.Idle
  | .memTurn => s.mem.run.pc ≠ .out
  | .ioTurn => s.mem.run.pc = .out ∧ s.io.run.pc ≠ .out

/-- `boot_capture_health`: discarded, late drains, longest gap. -/
def health (s : HealthRun) : U32 × U32 × U32 :=
  (s.mem.run.cursor.disc + s.io.run.cursor.disc, s.watchdog.lateDrains, s.watchdog.maxGapUs)

/-- The positions in `written` whose words were passed on, each once and in order. -/
def PassedAt (r : RatedRing) (positions : List Nat) : Prop :=
  positions.Pairwise (· < ·) ∧ (∀ i ∈ positions, i < r.run.sampled) ∧
    r.run.passed.map some = positions.map (r.run.written[·]?)

/-- If no drain was late, every word written up to the last drain was passed to
its decoder once or is counted as discarded. -/
def CountersSound (s : HealthRun) : Prop :=
  s.health.2.1 = 0#32 → ∃ memAt ioAt, PassedAt s.mem memAt ∧ PassedAt s.io ioAt ∧
    memAt.length + ioAt.length + s.health.1.toNat = s.mem.run.sampled + s.io.run.sampled

/-- The gap that the watchdog would compute now. -/
def seenGap (s : HealthRun) : U32 :=
  (BitVec.ofNat 64 s.now - s.watchdog.lastDrainUs).setWidth 32

/-- Neither ring has been written a whole lap since the last sample. -/
def Unlapped (s : HealthRun) : Prop :=
  s.mem.run.written.length < s.mem.run.sampled + 4096 ∧
    s.io.run.written.length < s.io.run.sampled + 4096

/-- A drain that the watchdog does not check, the first after a reset, comes before
either ring is lapped; so does a drain whose gap is within the budget only because
its high bits are cut off; the count of late drains does not wrap; no slot is
overwritten before its read. -/
def Watched (s : HealthRun) : HealthEvent → Prop
  | .drain =>
    (s.watchdog.lastDrainUs = 0#64 → s.Unlapped) ∧
    (s.watchdog.lastDrainUs ≠ 0#64 → s.seenGap ≤ Watchdog.drainBudgetUs →
      s.now - s.sampleTime < 2 ^ 32 ∨ s.Unlapped) ∧
    (s.watchdog.lastDrainUs ≠ 0#64 → Watchdog.drainBudgetUs < s.seenGap →
      s.watchdog.lateDrains ≠ 0xFFFFFFFF#32)
  | .memTurn => s.mem.run.InTime .cpu
  | .ioTurn => s.io.run.InTime .cpu
  | _ => True

instance (s : HealthRun) : Decidable s.Idle := inferInstanceAs (Decidable (_ ∧ _))

instance (s : HealthRun) : Decidable s.Unlapped := inferInstanceAs (Decidable (_ ∧ _))

instance (s : HealthRun) : ∀ e, Decidable (s.Possible e)
  | .elapse _ => .isTrue trivial
  | .memWord _ => inferInstanceAs (Decidable (_ < _))
  | .ioWord _ => inferInstanceAs (Decidable (_ < _))
  | .reset => inferInstanceAs (Decidable s.Idle)
  | .drain => inferInstanceAs (Decidable s.Idle)
  | .memTurn => inferInstanceAs (Decidable (_ ≠ _))
  | .ioTurn => inferInstanceAs (Decidable (_ ∧ _))

instance (s : HealthRun) : ∀ e, Decidable (s.Watched e)
  | .elapse _ => .isTrue trivial
  | .memWord _ => .isTrue trivial
  | .ioWord _ => .isTrue trivial
  | .reset => .isTrue trivial
  | .drain => inferInstanceAs (Decidable (_ ∧ _ ∧ _))
  | .memTurn => inferInstanceAs (Decidable (s.mem.run.InTime .cpu))
  | .ioTurn => inferInstanceAs (Decidable (s.io.run.InTime .cpu))

end HealthRun

/-! ## The rate bound and the gap that is seen -/

/-- At most two words per microsecond have come since the last sample. -/
structure RatedRing.Rated (r : RatedRing) (elapsed : Nat) : Prop where
  burst : r.burst ≤ 2
  arrived : r.run.written.length ≤ r.run.sampled + 2 * elapsed + r.burst

namespace RatedRing.Rated

variable {r : RatedRing} {elapsed : Nat}

theorem near (rated : r.Rated elapsed) (short : elapsed ≤ 2000) :
    r.run.written.length < r.run.sampled + 4096 := by
  have arrived := rated.arrived
  have burst := rated.burst
  omega

theorem elapse (rated : r.Rated elapsed) (us : Nat) : (r.elapse us).Rated (elapsed + us) := by
  have burst := rated.burst
  have arrived := rated.arrived
  unfold RatedRing.elapse
  by_cases still : us = 0
  · simp only [still, if_true]
    exact ⟨burst, arrived⟩
  · simp only [still, if_false]
    refine ⟨Nat.zero_le _, ?_⟩
    show r.run.written.length ≤ r.run.sampled + 2 * (elapsed + us) + 0
    omega

theorem word (rated : r.Rated elapsed) (room : r.burst < 2) (raw : U32) :
    (r.word raw).Rated elapsed := by
  have arrived := rated.arrived
  refine ⟨room, ?_⟩
  simp only [RatedRing.word, RingRun.dmaWrite, List.length_append, List.length_singleton]
  omega

theorem sample (rated : r.Rated elapsed) : r.sample.Rated 0 := by
  refine ⟨rated.burst, ?_⟩
  simp only [RatedRing.sample, RingRun.drainBegin]
  omega

theorem rearm (rated : r.Rated elapsed) : r.rearm.Rated 0 := ⟨rated.burst, Nat.zero_le _⟩

theorem turn (rated : r.Rated elapsed) (inside : r.run.pc ≠ .out)
    (dec : U32 → Option BootBusEvent) : (r.turn dec).Rated elapsed := by
  cases pc : r.run.pc with
  | out => exact absurd pc inside
  | loop total rd =>
    have same : (r.turn dec).run.sampled = r.run.sampled := by
      simp only [RatedRing.turn, RingRun.cpuStep, pc, RingRun.drainTurn]
      split <;> rfl
    refine ⟨rated.burst, ?_⟩
    rw [same, RatedRing.turn, cpuStep_written]
    exact rated.arrived

end RatedRing.Rated

theorem Watchdog.observe_lateDrains (w : Watchdog) (nowUs : U64) :
    (w.observe nowUs).lateDrains =
      if w.lastDrainUs ≠ 0#64 ∧ drainBudgetUs < (nowUs - w.lastDrainUs).setWidth 32 then
        w.lateDrains + 1#32
      else w.lateDrains := by
  unfold observe
  by_cases first : w.lastDrainUs = 0#64
  · simp [first]
  · simp only [first, ne_eq, not_false_eq_true, if_true, true_and]

namespace HealthRun

/-- While no drain has been late, neither ring has lost a word. -/
structure Sound (s : HealthRun) : Prop where
  ordered : s.sampleTime ≤ s.now
  clock : s.watchdog.lastDrainUs = 0#64 ∨
    s.watchdog.lastDrainUs = BitVec.ofNat 64 s.sampleTime
  mem : s.mem.Rated (s.now - s.sampleTime)
  io : s.io.Rated (s.now - s.sampleTime)
  lossless : s.watchdog.lateDrains = 0#32 →
    s.mem.run.Consistent (decodeInto decodeMem) [] ∧
      s.io.run.Consistent (decodeInto decodeIo) []

theorem initial_sound (now : Nat) (memDma ioDma : DmaRing) :
    (initial now memDma ioDma).Sound where
  ordered := Nat.le_refl now
  clock := .inl rfl
  mem := ⟨Nat.zero_le 2, Nat.zero_le _⟩
  io := ⟨Nat.zero_le 2, Nat.zero_le _⟩
  lossless := fun _ => ⟨armed_consistent memDma, armed_consistent ioDma⟩

section Steps

variable {s : HealthRun} (sound : s.Sound)

include sound

theorem Sound.seenGap_toNat (running : s.watchdog.lastDrainUs ≠ 0#64) :
    s.seenGap.toNat = (s.now - s.sampleTime) % 2 ^ 32 := by
  have ordered := sound.ordered
  have last := sound.clock.resolve_left running
  unfold seenGap
  rw [last, BitVec.toNat_setWidth, BitVec.toNat_sub, BitVec.toNat_ofNat, BitVec.toNat_ofNat]
  omega

/-- A drain that is not flagged comes before either ring can have been lapped. -/
theorem Sound.near_of_unflagged (watched : s.Watched .drain)
    (unflagged : ¬ (s.watchdog.lastDrainUs ≠ 0#64 ∧ Watchdog.drainBudgetUs < s.seenGap)) :
    s.Unlapped := by
  obtain ⟨first, untruncated, -⟩ := watched
  by_cases unchecked : s.watchdog.lastDrainUs = 0#64
  · exact first unchecked
  · have within : s.seenGap ≤ Watchdog.drainBudgetUs := by
      rw [← BitVec.not_lt]
      exact fun late => unflagged ⟨unchecked, late⟩
    rcases untruncated unchecked within with whole | unlapped
    · have gap := sound.seenGap_toNat unchecked
      have small : s.seenGap.toNat ≤ 2000 := BitVec.le_def.mp within
      rw [gap, Nat.mod_eq_of_lt whole] at small
      exact ⟨sound.mem.near small, sound.io.near small⟩
    · exact unlapped

theorem Sound.drain (idle : s.Idle) (watched : s.Watched .drain) :
    (machine.step s .drain).1.Sound where
  ordered := Nat.le_refl s.now
  clock := .inr rfl
  mem := by
    show s.mem.sample.Rated (s.now - s.now)
    rw [Nat.sub_self]
    exact sound.mem.sample
  io := by
    show s.io.sample.Rated (s.now - s.now)
    rw [Nat.sub_self]
    exact sound.io.sample
  lossless := by
    intro none
    have late : 0#32 =
        if s.watchdog.lastDrainUs ≠ 0#64 ∧ Watchdog.drainBudgetUs < s.seenGap then
          s.watchdog.lateDrains + 1#32
        else s.watchdog.lateDrains :=
      none.symm.trans (s.watchdog.observe_lateDrains _)
    have unflagged : ¬ (s.watchdog.lastDrainUs ≠ 0#64 ∧ Watchdog.drainBudgetUs < s.seenGap) := by
      intro flagged
      rw [if_pos flagged] at late
      have full := watched.2.2 flagged.1 flagged.2
      bv_omega
    rw [if_neg unflagged] at late
    obtain ⟨mem, io⟩ := sound.lossless late.symm
    obtain ⟨memNear, ioNear⟩ := sound.near_of_unflagged watched unflagged
    exact ⟨mem.drainBegin idle.1 memNear, io.drainBegin idle.2 ioNear⟩

theorem Sound.step {e : HealthEvent} (possible : s.Possible e) (watched : s.Watched e) :
    (machine.step s e).1.Sound := by
  have ordered := sound.ordered
  cases e with
  | elapse us =>
    have later : s.now + us - s.sampleTime = s.now - s.sampleTime + us := by omega
    refine ⟨Nat.le_add_right_of_le ordered, sound.clock, ?_, ?_, sound.lossless⟩
    · show (s.mem.elapse us).Rated (s.now + us - s.sampleTime)
      rw [later]
      exact sound.mem.elapse us
    · show (s.io.elapse us).Rated (s.now + us - s.sampleTime)
      rw [later]
      exact sound.io.elapse us
  | memWord raw =>
    refine ⟨ordered, sound.clock, sound.mem.word possible raw, sound.io, ?_⟩
    intro none
    exact (sound.lossless none).imp_left (·.dmaWrite raw)
  | ioWord raw =>
    refine ⟨ordered, sound.clock, sound.mem, sound.io.word possible raw, ?_⟩
    intro none
    exact (sound.lossless none).imp_right (·.dmaWrite raw)
  | reset =>
    refine ⟨Nat.le_refl s.now, .inl rfl, ?_, ?_, fun _ => ⟨armed_consistent _, armed_consistent _⟩⟩
    · show s.mem.rearm.Rated (s.now - s.now)
      rw [Nat.sub_self]
      exact sound.mem.rearm
    · show s.io.rearm.Rated (s.now - s.now)
      rw [Nat.sub_self]
      exact sound.io.rearm
  | drain => exact sound.drain possible watched
  | memTurn =>
    refine ⟨ordered, sound.clock, sound.mem.turn possible _, sound.io, ?_⟩
    intro none
    exact (sound.lossless none).imp_left (·.step (e := .cpu) watched)
  | ioTurn =>
    refine ⟨ordered, sound.clock, sound.mem, sound.io.turn possible.2 _, ?_⟩
    intro none
    exact (sound.lossless none).imp_right (·.step (e := .cpu) watched)

end Steps

theorem map_some_take {words : List U32} {n : Nat} (inside : n ≤ words.length) :
    (words.take n).map some = (List.range n).map (words[·]?) := by
  apply List.ext_getElem
  · simp [inside]
  · intro i hi _
    have below : i < words.length := by
      simp only [List.length_map, List.length_take] at hi
      omega
    simp [below]

/-- A ring that has lost nothing has passed on every position below the last sample. -/
theorem passedAt_range {r : RatedRing} {consume : List BootBusEvent → U32 → List BootBusEvent}
    (c : r.run.Consistent consume []) (out : r.run.pc = .out) :
    PassedAt r (List.range r.run.sampled) := by
  have here := c.positioned
  rw [out] at here
  refine ⟨List.pairwise_lt_range, fun i => List.mem_range.mp, ?_⟩
  rw [← map_some_take c.before, ← here.1, ← c.inOrder]

theorem Sound.countersSound {s : HealthRun} (sound : s.Sound) (idle : s.Idle) :
    s.CountersSound := by
  intro none
  obtain ⟨mem, io⟩ := sound.lossless none
  refine ⟨_, _, passedAt_range mem idle.1, passedAt_range io idle.2, ?_⟩
  simp [health, mem.disc, io.disc]

/-- In every run whose drains the watchdog really watches, the counters are sound
whenever core 1 is outside a drain. -/
theorem counters_sound {now : Nat} {memDma ioDma : DmaRing} {events : List HealthEvent}
    (possible : machine.Along Possible (initial now memDma ioDma) events)
    (watched : machine.Along Watched (initial now memDma ioDma) events)
    (idle : (machine.final (initial now memDma ioDma) events).Idle) :
    (machine.final (initial now memDma ioDma) events).CountersSound := by
  have both := (machine.along_and Possible Watched _ events).mpr ⟨possible, watched⟩
  have sound := machine.final_invariant _ Sound (fun s e sound step => sound.step step.1 step.2)
    (initial_sound now memDma ioDma) both
  exact sound.countersSound idle

/-- Two watched drains 1500 µs apart. -/
def tightDrains : List HealthEvent :=
  [ .memWord 0x0A030000#32, .elapse 5, .drain, .memTurn, .memTurn, .ioTurn
  , .ioWord 0x05AA00A8#32, .elapse 1500, .drain, .memTurn, .ioTurn, .ioTurn ]

theorem tightDrains_sound :
    (machine.final (initial 0 zeroRing zeroRing) tightDrains).CountersSound :=
  counters_sound (by decide +kernel) (by decide +kernel) (by decide +kernel)

/-! ## The unwatched first gap -/

/-- Two words per microsecond into the memory ring. -/
def fill : Nat → List HealthEvent
  | 0 => []
  | us + 1 => fill us ++ [.memWord 0#32, .memWord 0#32, .elapse 1]

/-- The state after `words` words have come to the memory ring since the first arming. -/
structure Filled (words : Nat) (s : HealthRun) : Prop where
  count : s.mem.run.written.length = words
  tracks : s.mem.run.dma.Tracks s.mem.run.written
  cursor : s.mem.run.cursor = .reset
  passed : s.mem.run.passed = []
  burst : s.mem.burst = 0
  idle : s.Idle
  watchdog : s.watchdog = .reset
  io : s.io.run = .armed zeroRing []

section Filled

variable {s : HealthRun} {words : Nat}

/-- One more microsecond at the full rate. -/
theorem Filled.grow (f : s.Filled words) :
    machine.Along Possible s [.memWord 0#32, .memWord 0#32, .elapse 1] ∧
      (machine.final s [.memWord 0#32, .memWord 0#32, .elapse 1]).Filled (words + 2) := by
  constructor
  · refine ⟨?_, ?_, trivial, trivial⟩
    · show s.mem.burst < 2
      rw [f.burst]
      decide
    · show s.mem.burst + 1 < 2
      rw [f.burst]
      decide
  · refine ⟨?_, (f.tracks.write _).write _, f.cursor, f.passed, rfl, f.idle, f.watchdog, f.io⟩
    show (s.mem.run.written ++ [0#32] ++ [0#32]).length = words + 2
    rw [List.length_append, List.length_append, f.count]
    rfl

theorem initial_filled : (initial 0 zeroRing zeroRing).Filled 0 :=
  ⟨rfl, zeroRing.arm_tracks, rfl, rfl, rfl, ⟨rfl, rfl⟩, rfl, rfl⟩

theorem fill_filled (us : Nat) :
    machine.Along Possible (initial 0 zeroRing zeroRing) (fill us) ∧
      (machine.final (initial 0 zeroRing zeroRing) (fill us)).Filled (2 * us) := by
  induction us with
  | zero => exact ⟨trivial, initial_filled⟩
  | succ us ih =>
    rw [fill, Machine.along_append, Machine.final_append]
    exact ⟨⟨ih.1, ih.2.grow.1⟩, ih.2.grow.2⟩

/-- A ring lapped exactly once looks untouched to the first drain. -/
theorem Filled.memTotal (f : s.Filled 4096) :
    s.mem.run.cursor.beginDrain s.mem.run.dma = (.reset, 0#32, 0#32) := by
  have offset := f.tracks.offset
  rw [f.count] at offset
  rw [f.cursor, RingCursor.beginDrain_eq _ rfl]
  simp only [RingCursor.dmaTotal, offset]
  rfl

theorem Filled.ioTotal (f : s.Filled words) :
    s.io.run.cursor.beginDrain s.io.run.dma = (.reset, 0#32, 0#32) := by
  rw [f.io]
  decide +kernel

theorem cpuStep_out {r : RingRun (List BootBusEvent)}
    {consume : List BootBusEvent → U32 → List BootBusEvent} {total : U32}
    (at_ : r.pc = .loop total total) :
    r.cpuStep consume = { r with cursor := { r.cursor with rd := total }, pc := .out } := by
  unfold RingRun.cpuStep
  rw [at_]
  exact if_pos rfl

/-- What a lapped first drain leaves: nothing read, nothing counted. -/
theorem Filled.drained (f : s.Filled 4096) :
    let t := machine.final s [.drain, .memTurn, .ioTurn]
    machine.Along Possible s [.drain, .memTurn, .ioTurn] ∧ t.Idle ∧
      t.health.1 = 0#32 ∧ t.health.2.1 = 0#32 ∧ t.mem.run.passed = [] ∧ t.io.run.passed = [] ∧
      t.mem.run.sampled = 4096 := by
  have memBegun : s.mem.sample.run = { s.mem.run with
      cursor := .reset, pc := .loop 0#32 0#32, sampled := s.mem.run.written.length } := by
    simp only [RatedRing.sample, RingRun.drainBegin, f.memTotal]
  have ioBegun : s.io.sample.run = { s.io.run with
      cursor := .reset, pc := .loop 0#32 0#32, sampled := s.io.run.written.length } := by
    simp only [RatedRing.sample, RingRun.drainBegin, f.ioTotal]
  have memDone : (s.mem.sample.turn decodeMem).run = { s.mem.run with
      cursor := .reset, pc := .out, sampled := s.mem.run.written.length } := by
    simp only [RatedRing.turn]
    rw [memBegun]
    exact cpuStep_out rfl
  have ioDone : (s.io.sample.turn decodeIo).run = { s.io.run with
      cursor := .reset, pc := .out, sampled := s.io.run.written.length } := by
    simp only [RatedRing.turn]
    rw [ioBegun]
    exact cpuStep_out rfl
  have memOut : (s.mem.sample.turn decodeMem).run.pc = .out := by rw [memDone]
  have ioOut : (s.io.sample.turn decodeIo).run.pc = .out := by rw [ioDone]
  refine ⟨⟨f.idle, ?_, ⟨memOut, ?_⟩, trivial⟩, ⟨memOut, ioOut⟩, ?_, ?_, ?_, ?_, ?_⟩
  · show s.mem.sample.run.pc ≠ .out
    rw [memBegun]
    exact DrainPc.noConfusion
  · show s.io.sample.run.pc ≠ .out
    rw [ioBegun]
    exact DrainPc.noConfusion
  · show (s.mem.sample.turn decodeMem).run.cursor.disc +
      (s.io.sample.turn decodeIo).run.cursor.disc = 0#32
    rw [memDone, ioDone]
    rfl
  · show (s.watchdog.observe (BitVec.ofNat 64 s.now)).lateDrains = 0#32
    rw [f.watchdog, Watchdog.observe_lateDrains]
    rfl
  · show (s.mem.sample.turn decodeMem).run.passed = []
    rw [memDone]
    exact f.passed
  · show (s.io.sample.turn decodeIo).run.passed = []
    rw [ioDone, f.io]
    rfl
  · show (s.mem.sample.turn decodeMem).run.sampled = 4096
    rw [memDone]
    exact f.count

theorem Filled.unsound (f : s.Filled 4096) :
    ¬ (machine.final s [.drain, .memTurn, .ioTurn]).CountersSound := by
  obtain ⟨-, -, dropped, onTime, memPassed, ioPassed, sampled⟩ := f.drained
  intro sound
  obtain ⟨memAt, ioAt, ⟨-, -, mem⟩, ⟨-, -, io⟩, total⟩ := sound onTime
  rw [memPassed] at mem
  rw [ioPassed] at io
  have memNone : memAt = [] := List.map_eq_nil_iff.mp mem.symm
  have ioNone : ioAt = [] := List.map_eq_nil_iff.mp io.symm
  rw [memNone, ioNone, dropped, sampled] at total
  simp at total
  omega

end Filled

/-- The first drain after a reset, `us` microseconds later. -/
def lateFirstDrain (us : Nat) : List HealthEvent := fill us ++ [.drain, .memTurn, .ioTurn]

theorem lateFirstDrain_run {us : Nat} (lapped : 2 * us = 4096) :
    machine.Along Possible (initial 0 zeroRing zeroRing) (lateFirstDrain us) ∧
      (machine.final (initial 0 zeroRing zeroRing) (lateFirstDrain us)).Idle ∧
      ¬ (machine.final (initial 0 zeroRing zeroRing) (lateFirstDrain us)).CountersSound := by
  obtain ⟨possible, filled⟩ := fill_filled us
  rw [lapped] at filled
  rw [lateFirstDrain, Machine.along_append, Machine.final_append]
  exact ⟨⟨possible, filled.drained.1⟩, filled.drained.2.1, filled.unsound⟩

/-- 2048 µs after the reset a whole ring of words is lost, yet no drain is late
and none is counted as discarded. -/
theorem lappedFirstDrain_unsound :
    machine.Along Possible (initial 0 zeroRing zeroRing) (lateFirstDrain 2048) ∧
      (machine.final (initial 0 zeroRing zeroRing) (lateFirstDrain 2048)).Idle ∧
      ¬ (machine.final (initial 0 zeroRing zeroRing) (lateFirstDrain 2048)).CountersSound :=
  lateFirstDrain_run rfl

end HealthRun

end MsxPulse.Firmware.BootCapture
