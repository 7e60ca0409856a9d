import MsxPulse.Firmware.CaptureRing.Guard

/-!
# The drains of the three capture rings

The memory and I/O rings feed the boot detector, the read ring feeds the bus
analyzer; all three pass every word exactly once, and a drain that has begun ends.
-/

namespace MsxPulse.Firmware

open Library RingRun

namespace RingRun

variable {Consumer : Type} (consume : Consumer → U32 → Consumer)

/-- The events of so many turns of the read loop. -/
def turnEvents (arriving : Nat → List U32) : Nat → List RingEvent
  | 0 => []
  | n + 1 => (arriving n).map .dma ++ .cpu :: turnEvents arriving n

theorem final_dma (words : List U32) (s : RingRun Consumer) :
    (machine consume).final s (words.map .dma) = words.foldl dmaWrite s := by
  induction words generalizing s with
  | nil => rfl
  | cons word words ih => exact ih (s.dmaWrite word)

theorem final_turnEvents (arriving : Nat → List U32) (n : Nat) (s : RingRun Consumer) :
    (machine consume).final s (turnEvents arriving n) = turns consume arriving n s := by
  induction n generalizing s with
  | zero => rfl
  | succ n ih =>
    rw [turnEvents, Machine.final_append, Machine.final_cons, final_dma]
    exact ih _

/-- A drain that has begun ends after a turn for each word that it has left and the one that
leaves the loop, whatever is stored meanwhile. If these turns are in time like the run before
them, it has then passed on the words that were written up to its sample. -/
theorem begun_drain_ends {dma : DmaRing} {start : Consumer} {events : List RingEvent}
    (inTime : (machine consume).Along InTime (armed dma start) events) {total rd : U32}
    (begun : ((machine consume).final (armed dma start) events).pc = .loop total rd)
    (arriving : Nat → List U32) :
    let s := (machine consume).final (armed dma start) events
    let turns := turnEvents arriving (s.sampled - s.passed.length + 1)
    ((machine consume).final s turns).pc = .out ∧
      ((machine consume).final s turns).passed.length = s.sampled ∧
      ((machine consume).Along InTime s turns →
        ((machine consume).final s turns).passed = (dmaWords events).take s.sampled) := by
  intro s turns
  have c : s.Consistent consume start := consistent_of_run consume inTime
  have here := c.positioned
  rw [begun] at here
  obtain ⟨atTotal, atRd, le, near⟩ := here
  have left : (total - rd).toNat = s.sampled - s.passed.length := by
    rw [atTotal, atRd, BitVec.toNat_sub, BitVec.toNat_ofNat, BitVec.toNat_ofNat]
    omega
  obtain ⟨out, -, count⟩ := turns_loop consume arriving begun
  rw [left, ← final_turnEvents] at out count
  have passed : ((machine consume).final s turns).passed.length = s.sampled :=
    count.trans (Nat.add_sub_cancel' le)
  refine ⟨out, passed, ?_⟩
  intro later
  have whole := consistent_of_run consume ((Machine.along_append _ _ _ _ _).mpr ⟨inTime, later⟩)
  have inOrder := whole.inOrder
  have written : s.written = dmaWords events := final_written consume (armed dma start) events
  rw [Machine.final_append, final_written] at inOrder
  rw [passed, List.take_append_of_le_length c.before, written] at inOrder
  exact inOrder

end RingRun

end MsxPulse.Firmware
