import MsxPulse.Firmware.CaptureRing

/-!
# A drained ring passes every word once and in order

The invariant ties the three counters of a drain to the observer's records: the
running total is the number of words written at the last sample, the write offset
is its slot, and the read cursor is the number of words read, each modulo the
width it is kept in. It needs fewer than 4096 words between two samples and no
slot overwritten before its read; then the counters may wrap any number of times.
-/

namespace MsxPulse.Firmware.RingRun

open Library

variable {Consumer : Type}

/-- Fewer than a ring of words between two samples, and no slot overwritten
before it is read. -/
def InTime (s : RingRun Consumer) : RingEvent → Prop
  | .dma _ => True
  | .cpu =>
    match s.pc with
    | .out => s.written.length < s.sampled + 4096
    | .loop total rd => rd ≠ total → s.written.length ≤ s.passed.length + 4096

instance : ∀ (s : RingRun Consumer) (e : RingEvent), Decidable (s.InTime e)
  | _, .dma _ => .isTrue trivial
  | ⟨_, _, .out, _, _, _, _⟩, .cpu => inferInstanceAs (Decidable (_ < _))
  | ⟨_, _, .loop _ _, _, _, _, _⟩, .cpu => inferInstanceAs (Decidable (_ → _))

/-- What the words read so far have to do with the program's position. -/
def Positioned (s : RingRun Consumer) : DrainPc → Prop
  | .out => s.passed.length = s.sampled ∧ s.cursor.rd = BitVec.ofNat 32 s.sampled
  | .loop total rd =>
    total = BitVec.ofNat 32 s.sampled ∧ rd = BitVec.ofNat 32 s.passed.length ∧
      s.passed.length ≤ s.sampled ∧ s.sampled < s.passed.length + 4096

/-- The statics of a drain that has lost nothing so far. -/
structure Consistent (consume : Consumer → U32 → Consumer) (start : Consumer)
    (s : RingRun Consumer) : Prop where
  tracks : s.dma.Tracks s.written
  total : s.cursor.waddrTotal = BitVec.ofNat 32 s.sampled
  prev : s.cursor.waddrPrev = BitVec.ofNat 32 (s.sampled % 4096)
  disc : s.cursor.disc = 0#32
  before : s.sampled ≤ s.written.length
  inOrder : s.passed = s.written.take s.passed.length
  consumer : s.consumer = s.passed.foldl consume start
  positioned : s.Positioned s.pc

section Steps

variable {consume : Consumer → U32 → Consumer} {start : Consumer} {s : RingRun Consumer}

theorem armed_consistent (dma : DmaRing) : (armed dma start).Consistent consume start where
  tracks := dma.arm_tracks
  total := rfl
  prev := rfl
  disc := rfl
  before := Nat.le_refl 0
  inOrder := rfl
  consumer := rfl
  positioned := ⟨rfl, rfl⟩

theorem Consistent.passed_le (c : s.Consistent consume start) :
    s.passed.length ≤ s.written.length := by
  have shorter := congrArg List.length c.inOrder
  rw [List.length_take] at shorter
  omega

theorem Consistent.dmaWrite (c : s.Consistent consume start) (word : U32) :
    (s.dmaWrite word).Consistent consume start where
  tracks := c.tracks.write word
  total := c.total
  prev := c.prev
  disc := c.disc
  before := by
    have before := c.before
    simp only [RingRun.dmaWrite, List.length_append]
    omega
  inOrder := by
    show s.passed = (s.written ++ [word]).take s.passed.length
    rw [List.take_append_of_le_length c.passed_le]
    exact c.inOrder
  consumer := c.consumer
  positioned := c.positioned

theorem Consistent.drainBegin (c : s.Consistent consume start) (out : s.pc = .out)
    (near : s.written.length < s.sampled + 4096) : s.drainBegin.Consistent consume start := by
  have here := c.positioned
  rw [out] at here
  obtain ⟨count, rd⟩ := here
  have begun := RingCursor.beginDrain_eq s.dma (rd.trans c.total.symm)
  have sampled := RingCursor.dmaTotal_eq c.tracks c.total c.prev c.before near
  rw [sampled] at begun
  unfold RingRun.drainBegin
  rw [begun]
  refine ⟨c.tracks, rfl, rfl, c.disc, Nat.le_refl _, c.inOrder, c.consumer, rfl, ?_, ?_, ?_⟩
  · rw [← count] at rd
    exact rd
  · exact c.passed_le
  · show s.written.length < s.passed.length + 4096
    omega

theorem ofNat_eq_iff_of_near {i j : Nat} (before : i ≤ j) (near : j < i + 4096) :
    BitVec.ofNat 32 i = BitVec.ofNat 32 j ↔ i = j := by
  constructor
  · intro same
    have values := congrArg BitVec.toNat same
    rw [BitVec.toNat_ofNat, BitVec.toNat_ofNat] at values
    omega
  · intro same
    rw [same]

theorem Consistent.drainTurn (c : s.Consistent consume start) {total rd : U32}
    (loop : s.pc = .loop total rd)
    (kept : rd ≠ total → s.written.length ≤ s.passed.length + 4096) :
    (s.drainTurn consume total rd).Consistent consume start := by
  have here := c.positioned
  rw [loop] at here
  obtain ⟨atTotal, atRd, le, near⟩ := here
  have finished : rd = total ↔ s.passed.length = s.sampled := by
    rw [atTotal, atRd]
    exact ofNat_eq_iff_of_near le near
  unfold RingRun.drainTurn
  by_cases done : rd = total
  · rw [if_pos done]
    have all := finished.mp done
    refine ⟨c.tracks, c.total, c.prev, c.disc, c.before, c.inOrder, c.consumer, all, ?_⟩
    show rd = BitVec.ofNat 32 s.sampled
    rw [atRd, all]
  · rw [if_neg done]
    have more : s.passed.length < s.sampled :=
      Nat.lt_of_le_of_ne le fun all => done (finished.mpr all)
    have inside : s.passed.length < s.written.length := Nat.lt_of_lt_of_le more c.before
    have word : s.dma.read rd = s.written[s.passed.length] := by
      rw [atRd]
      exact c.tracks.read inside (kept done)
    refine ⟨c.tracks, c.total, c.prev, c.disc, c.before, ?_, ?_, atTotal, ?_, ?_, ?_⟩
    · show s.passed ++ [s.dma.read rd] = s.written.take (s.passed ++ [s.dma.read rd]).length
      rw [List.length_append, List.length_singleton, List.take_succ_eq_append_getElem inside, word,
        ← c.inOrder]
    · show consume s.consumer (s.dma.read rd) = (s.passed ++ [s.dma.read rd]).foldl consume start
      rw [List.foldl_append, ← c.consumer]
      rfl
    · show rd + 1#32 = BitVec.ofNat 32 (s.passed ++ [s.dma.read rd]).length
      rw [List.length_append, List.length_singleton, BitVec.ofNat_add, atRd]
    · rw [List.length_append, List.length_singleton]
      exact more
    · rw [List.length_append, List.length_singleton]
      show s.sampled < s.passed.length + 1 + 4096
      omega

theorem Consistent.step (c : s.Consistent consume start) {e : RingEvent} (inTime : s.InTime e) :
    ((machine consume).step s e).1.Consistent consume start := by
  cases e with
  | dma word => exact c.dmaWrite word
  | cpu =>
    show (s.cpuStep consume).Consistent consume start
    unfold cpuStep
    unfold InTime at inTime
    cases pc : s.pc with
    | out =>
      rw [pc] at inTime
      exact c.drainBegin pc inTime
    | loop total rd =>
      rw [pc] at inTime
      exact c.drainTurn pc inTime

end Steps

/-- The words that the DMA writes in a run, in order. -/
def dmaWords : List RingEvent → List U32
  | [] => []
  | .dma word :: events => word :: dmaWords events
  | .cpu :: events => dmaWords events

section Run

variable {Consumer : Type} (consume : Consumer → U32 → Consumer)

theorem cpuStep_written (s : RingRun Consumer) : (s.cpuStep consume).written = s.written := by
  unfold cpuStep
  split
  · rfl
  · unfold RingRun.drainTurn
    split <;> rfl

theorem final_written (s : RingRun Consumer) (events : List RingEvent) :
    ((machine consume).final s events).written = s.written ++ dmaWords events := by
  induction events generalizing s with
  | nil => simp [dmaWords]
  | cons e events ih =>
    rw [Machine.final_cons, ih]
    cases e with
    | dma word => simp [machine, RingRun.dmaWrite, dmaWords]
    | cpu => simp [machine, cpuStep_written, dmaWords]

theorem consistent_of_run {dma : DmaRing} {start : Consumer} {events : List RingEvent}
    (inTime : (machine consume).Along InTime (armed dma start) events) :
    ((machine consume).final (armed dma start) events).Consistent consume start :=
  (machine consume).final_invariant InTime (Consistent consume start) (fun _ _ c h => c.step h)
    (armed_consistent dma) inTime

end Run

end MsxPulse.Firmware.RingRun
