import MsxPulse.Firmware.BootDiag.ReportSize
import MsxPulse.Firmware.Captures.Isolation

/-!
# What a round can freeze

In every history the result has at most ten stuck address lines, because six must
toggle before any counts as stuck, and no anomaly flag beyond the five that exist.
-/

namespace MsxPulse.Firmware

open Library

/-- A line that toggles is not stuck. -/
theorem BusIntegrity.count_stuckAddr_le (b : BusIntegrity) (minReads minDistinctBits : U32) :
    Nat.count (fun k => (b.stuckAddr minReads minDistinctBits).getLsbD k = true) 16 ≤
      16 - minDistinctBits.toNat := by
  have none : Nat.count (fun k => (0 : U16).getLsbD k = true) 16 = 0 := by decide
  unfold stuckAddr
  split
  · exact none.trans_le (Nat.zero_le _)
  · simp only []
    split
    · exact none.trans_le (Nat.zero_le _)
    · rename_i enough
      have toggle : minDistinctBits.toNat ≤
          Nat.count (fun k => (b.addrSeenHi &&& b.addrSeenLo).getLsbD k = true) 16 := by
        have few := Nat.count_le (p := fun k =>
          (b.addrSeenHi &&& b.addrSeenLo).getLsbD k = true) (n := 16)
        have value := BitVec.not_lt.mp enough
        rw [popcount16, popcountLoop_eq_count 16 _ _ (BitVec.isLt _), BitVec.le_def,
          BitVec.toNat_add] at value
        simp only [BitVec.toNat_ofNat] at value
        omega
      have apart : ∀ k ∈ List.range 16, ¬((b.addrSeenHi &&& b.addrSeenLo).getLsbD k = true ∧
          ((b.addrSeenHi ||| b.addrSeenLo) &&& ~~~(b.addrSeenHi &&& b.addrSeenLo)).getLsbD k =
            true) := by
        rintro k - ⟨toggles, stuck⟩
        rw [BitVec.getLsbD_and, Bool.and_eq_true, BitVec.getLsbD_not, Bool.and_eq_true,
          Bool.not_eq_true'] at stuck
        exact absurd (toggles.symm.trans stuck.2.2) Bool.noConfusion
      have all := List.countP_le_length (p := fun k =>
        (b.addrSeenHi &&& b.addrSeenLo).getLsbD k ||
          ((b.addrSeenHi ||| b.addrSeenLo) &&& ~~~(b.addrSeenHi &&& b.addrSeenLo)).getLsbD k)
        (l := List.range 16)
      rw [countP_or_of_disjoint _ _ _ apart, List.length_range] at all
      have split : Nat.count (fun k => (b.addrSeenHi &&& b.addrSeenLo).getLsbD k = true) 16 +
          Nat.count (fun k => ((b.addrSeenHi ||| b.addrSeenLo) &&&
            ~~~(b.addrSeenHi &&& b.addrSeenLo)).getLsbD k = true) 16 ≤ 16 := by
        simpa only [Nat.count, Bool.decide_eq_true] using all
      omega

/-- What holds of every result that a round freezes. -/
structure BootDiagResult.Freezable (r : BootDiagResult) : Prop where
  few : (bits (r.stuckAddrMask.setWidth 32) 16).length ≤ 10
  known : r.anomalyFlags.toNat < 2 ^ 5

namespace BootDiag

theorem classifyAnomalies_known (s : BusProbeSnapshot) (events : U32) :
    (classifyAnomalies s events).toNat < 2 ^ 5 := by
  unfold classifyAnomalies
  simp only []
  split_ifs <;> decide

theorem freezeResult_freezable {d : BootDiag} (known : d.anomAccum.toNat < 2 ^ 5)
    (bs : BootDetect) : (d.freezeResult bs).Freezable where
  few := by
    have count := d.bi.count_stuckAddr_le minReads minAddrBits
    rw [Nat.count, List.countP_eq_length_filter] at count
    refine Nat.le_trans (Nat.le_of_eq (congrArg List.length (List.filter_congr ?_))) count
    intro k inside
    have narrow : k < 16 := List.mem_range.mp inside
    rw [bitSet_eq_getLsbD, BitVec.getLsbD_setWidth, decide_eq_true (show k < 32 by omega),
      Bool.true_and, Bool.decide_eq_true]
    rfl
  known := known

/-- The accumulated flags and the result so far. -/
structure Frozen (d : BootDiag) : Prop where
  accum : d.anomAccum.toNat < 2 ^ 5
  result : d.result.Freezable

variable {d : BootDiag}

theorem initial_frozen : initial.Frozen := ⟨by decide, by decide, by decide⟩

theorem Frozen.start (h : d.Frozen) : d.start.Frozen := by
  rw [start_eq]
  exact ⟨h.accum, h.result⟩

theorem Frozen.tick (h : d.Frozen) (snap : BusProbeSnapshot) (bs : BootDetect) (nowMs : U32) :
    (d.tick snap bs nowMs).1.Frozen := by
  have flags : (d.anomAccum ||| classifyAnomalies snap d.bi.nReads).toNat < 2 ^ 5 := by
    rw [BitVec.toNat_or]
    exact Nat.or_lt_two_pow h.accum (classifyAnomalies_known snap d.bi.nReads)
  have outcome := tick_outcome d snap bs nowMs
  generalize d.tick snap bs nowMs = next at outcome
  cases outcome with
  | wait => exact h
  | beginRound => exact ⟨Nat.two_pow_pos 5, h.result⟩
  | beginPass | endWindow => exact ⟨h.accum, h.result⟩
  | nextPass => exact ⟨flags, h.result⟩
  | finish => exact ⟨flags, freezeResult_freezable flags bs⟩

end BootDiag

namespace Captures

theorem cmdDispatch_frozen {s : Captures} (h : s.diag.Frozen) (cmd : ParsedCmd) :
    (s.cmdDispatch cmd).diag.Frozen := by
  unfold cmdDispatch
  cases cmd.type with
  | boot => exact h.start
  | reset =>
    show (bootCaptureReset _).diag.Frozen
    rw [bootCaptureReset_diag]
    exact h
  | _ => exact h

/-- No event of the machine breaks it. -/
theorem step_frozen (s : Captures) (e : CaptureEvent) (h : s.diag.Frozen) :
    (machine.step s e).1.diag.Frozen := by
  cases e with
  | start => exact h.start
  | tick nowMs snap =>
    show (s.tick nowMs snap).diag.Frozen
    rw [tick_diag]
    exact h.tick snap s.detect nowMs
  | core1 nowUs =>
    show (s.core1Step nowUs).diag.Frozen
    rw [core1Step_diag]
    exact ⟨h.accum, h.result⟩
  | command cmd => exact cmdDispatch_frozen h cmd
  | memWord | ioWord | txnWord | cartRead | combo => exact h

/-- Every result that any history has frozen. -/
theorem Reached.freezable {s : Captures} (reached : s.Reached) : s.diag.result.Freezable := by
  obtain ⟨memory, past, -, rfl⟩ := reached
  exact (machine.final_preserved (·.diag.Frozen) step_frozen BootDiag.initial_frozen past).result

end Captures

end MsxPulse.Firmware
