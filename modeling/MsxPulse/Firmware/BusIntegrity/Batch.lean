import MsxPulse.Firmware.BusIntegrity
import Mathlib.Data.List.Perm.Basic
import Mathlib.Data.Nat.Count

/-!
# The analyzer's verdicts as statements about the whole read list

Each finding of bus_integrity.h is first stated over the list of reads, without
accumulators. The streaming analyzer computes exactly these statements, so the
order of the reads and their split over passes cannot matter.
-/

namespace MsxPulse.Firmware.BusIntegrity

open Library

/-- Dk read 1 on every one of at least `minReads` reads. -/
def DataStuckHi (reads : List BusRead) (minReads : U32) (k : Nat) : Prop :=
  minReads.toNat ≤ reads.length ∧ ∀ r ∈ reads, r.data.getLsbD k = true

/-- Dk read 0 on every one of at least `minReads` reads. -/
def DataStuckLo (reads : List BusRead) (minReads : U32) (k : Nat) : Prop :=
  minReads.toNat ≤ reads.length ∧ ∀ r ∈ reads, r.data.getLsbD k = false

/-- Ak was seen at both levels. -/
def AddrToggled (reads : List BusRead) (k : Nat) : Prop :=
  (∃ r ∈ reads, r.addr.getLsbD k = true) ∧ ∃ r ∈ reads, r.addr.getLsbD k = false

instance (reads : List BusRead) (k : Nat) : Decidable (AddrToggled reads k) :=
  inferInstanceAs (Decidable (_ ∧ _))

/-- All reads agree on Ak while at least `minBits` address bits toggled. -/
def AddrStuck (reads : List BusRead) (minReads minBits : U32) (k : Nat) : Prop :=
  minReads.toNat ≤ reads.length ∧
    (∀ r ∈ reads, ∀ r' ∈ reads, r.addr.getLsbD k = r'.addr.getLsbD k) ∧
    minBits.toNat ≤ Nat.count (AddrToggled reads) 16

/-- Strictly more than half of the reads returned 0x00 or 0xFF. -/
def Undriven (reads : List BusRead) (minReads : U32) : Prop :=
  minReads.toNat ≤ reads.length ∧
    reads.length < 2 * reads.countP fun r => r.data = 0x00#8 ∨ r.data = 0xFF#8

/-- Checkpoint `k` was read. -/
def CheckpointRead (reads : List BusRead) (k : Nat) : Prop :=
  ∃ cp, v20Checkpoints[k]? = some cp ∧ ∃ r ∈ reads, r.addr = cp.addr

/-- Checkpoint `k` was read with another byte than expected. -/
def CheckpointWrong (reads : List BusRead) (k : Nat) : Prop :=
  ∃ cp, v20Checkpoints[k]? = some cp ∧ ∃ r ∈ reads, r.addr = cp.addr ∧ r.data ≠ cp.expected

/-- Everything `freeze_result` asks the analyzer for. -/
structure Verdicts where
  stuckDataHi : U8
  stuckDataLo : U8
  stuckAddr : U16
  busUndriven : Bool
  cpChecked : U8
  cpFailed : U8
  deriving DecidableEq

def verdicts (b : BusIntegrity) (minReads minBits : U32) : Verdicts where
  stuckDataHi := b.stuckDataHi minReads
  stuckDataLo := b.stuckDataLo minReads
  stuckAddr := b.stuckAddr minReads minBits
  busUndriven := b.busUndriven minReads
  cpChecked := b.cpChecked
  cpFailed := b.cpFailed

section Accumulators

variable (reads : List BusRead)

theorem dataSeenHi_iff (k : Nat) :
    (reset.feedAll reads).dataSeenHi.getLsbD k = true ↔
      ∃ r ∈ reads, r.data.getLsbD k = true := by
  rw [feedAll_eq]
  exact getLsbD_orAll_zero _ _ _

theorem dataSeenLo_iff {k : Nat} (inside : k < 8) :
    (reset.feedAll reads).dataSeenLo.getLsbD k = true ↔
      ∃ r ∈ reads, r.data.getLsbD k = false := by
  rw [feedAll_eq]
  refine (getLsbD_orAll_zero _ _ _).trans ?_
  simp [inside, -BitVec.getLsbD_eq_getElem]

theorem addrSeenHi_iff (k : Nat) :
    (reset.feedAll reads).addrSeenHi.getLsbD k = true ↔
      ∃ r ∈ reads, r.addr.getLsbD k = true := by
  rw [feedAll_eq]
  exact getLsbD_orAll_zero _ _ _

theorem addrSeenLo_iff {k : Nat} (inside : k < 16) :
    (reset.feedAll reads).addrSeenLo.getLsbD k = true ↔
      ∃ r ∈ reads, r.addr.getLsbD k = false := by
  rw [feedAll_eq]
  refine (getLsbD_orAll_zero _ _ _).trans ?_
  simp [inside, -BitVec.getLsbD_eq_getElem]

theorem nReads_toNat (short : reads.length < 2 ^ 31) :
    (reset.feedAll reads).nReads.toNat = reads.length := by
  rw [feedAll_eq]
  simp only [reset, BitVec.zero_add, BitVec.toNat_ofNat]
  omega

/-- The gate every verdict starts with. -/
theorem nReads_lt_iff (short : reads.length < 2 ^ 31) (minReads : U32) :
    (reset.feedAll reads).nReads < minReads ↔ ¬ minReads.toNat ≤ reads.length := by
  rw [BitVec.lt_def, nReads_toNat reads short]
  omega

end Accumulators

theorem getLsbD_seen_and_not {w : Nat} (seen other : BitVec w) {k : Nat} (inside : k < w) :
    (seen &&& ~~~other).getLsbD k = true ↔
      seen.getLsbD k = true ∧ other.getLsbD k = false := by
  simp [inside, -BitVec.getLsbD_eq_getElem]

section Verdicts

variable (reads : List BusRead) (minReads minBits : U32)

theorem reads_nonempty {reads : List BusRead} {minReads : U32} (positive : 1 ≤ minReads.toNat)
    (enough : minReads.toNat ≤ reads.length) : ∃ r, r ∈ reads :=
  List.exists_mem_of_length_pos (by omega)

theorem stuckDataHi_iff (short : reads.length < 2 ^ 31) (positive : 1 ≤ minReads.toNat)
    {k : Nat} (inside : k < 8) :
    ((reset.feedAll reads).stuckDataHi minReads).getLsbD k = true ↔
      DataStuckHi reads minReads k := by
  unfold stuckDataHi DataStuckHi
  rw [if_congr (nReads_lt_iff reads short minReads) rfl rfl]
  split
  next few => simp [few]
  next enough =>
    have enough := not_not.mp enough
    obtain ⟨r, hr⟩ := reads_nonempty positive enough
    rw [getLsbD_seen_and_not _ _ inside, dataSeenHi_iff, ← Bool.not_eq_true,
      dataSeenLo_iff reads inside]
    constructor
    · rintro ⟨_, never⟩
      exact ⟨enough, fun r hr => by by_contra low; exact never ⟨r, hr, by simpa using low⟩⟩
    · rintro ⟨_, always⟩
      exact ⟨⟨r, hr, always r hr⟩, fun ⟨r, hr, low⟩ => by simp [always r hr] at low⟩

theorem stuckDataLo_iff (short : reads.length < 2 ^ 31) (positive : 1 ≤ minReads.toNat)
    {k : Nat} (inside : k < 8) :
    ((reset.feedAll reads).stuckDataLo minReads).getLsbD k = true ↔
      DataStuckLo reads minReads k := by
  unfold stuckDataLo DataStuckLo
  rw [if_congr (nReads_lt_iff reads short minReads) rfl rfl]
  split
  next few => simp [few]
  next enough =>
    have enough := not_not.mp enough
    obtain ⟨r, hr⟩ := reads_nonempty positive enough
    rw [getLsbD_seen_and_not _ _ inside, dataSeenLo_iff reads inside, ← Bool.not_eq_true,
      dataSeenHi_iff]
    constructor
    · rintro ⟨_, never⟩
      exact ⟨enough, fun r hr => by by_contra high; exact never ⟨r, hr, by simpa using high⟩⟩
    · rintro ⟨_, always⟩
      exact ⟨⟨r, hr, always r hr⟩, fun ⟨r, hr, high⟩ => by simp [always r hr] at high⟩

theorem toggled_iff {k : Nat} (inside : k < 16) :
    ((reset.feedAll reads).addrSeenHi &&& (reset.feedAll reads).addrSeenLo).getLsbD k = true ↔
      AddrToggled reads k := by
  rw [BitVec.getLsbD_and, Bool.and_eq_true, addrSeenHi_iff, addrSeenLo_iff reads inside]
  rfl

theorem popcount16_toggled :
    (popcount16 ((reset.feedAll reads).addrSeenHi &&& (reset.feedAll reads).addrSeenLo)).toNat =
      Nat.count (AddrToggled reads) 16 := by
  unfold popcount16
  rw [popcountLoop_eq_count 16 _ _ (BitVec.isLt _)]
  have same : Nat.count (fun k => ((reset.feedAll reads).addrSeenHi &&&
      (reset.feedAll reads).addrSeenLo).getLsbD k = true) 16 =
        Nat.count (AddrToggled reads) 16 := by
    rw [Nat.count_eq_card_filter_range, Nat.count_eq_card_filter_range]
    congr 1
    exact Finset.filter_congr fun k hk => toggled_iff reads (Finset.mem_range.mp hk)
  have few := Nat.count_le (p := AddrToggled reads) (n := 16)
  rw [same, BitVec.toNat_add]
  simp only [BitVec.toNat_ofNat]
  omega

/-- A line that did not toggle was read at one level only. -/
theorem not_toggled_iff {k : Nat} :
    ¬ AddrToggled reads k ↔
      ∀ r ∈ reads, ∀ r' ∈ reads, r.addr.getLsbD k = r'.addr.getLsbD k := by
  constructor
  · intro stuck r hr r' hr'
    by_contra differ
    apply stuck
    cases level : r.addr.getLsbD k with
    | true => exact ⟨⟨r, hr, level⟩, r', hr', by simpa [level] using differ⟩
    | false => exact ⟨⟨r', hr', by simpa [level] using differ⟩, r, hr, level⟩
  · rintro agree ⟨⟨r, hr, high⟩, r', hr', low⟩
    simp [agree r hr r' hr', low] at high

theorem stuckAddr_iff (short : reads.length < 2 ^ 31) (positive : 1 ≤ minReads.toNat)
    {k : Nat} (inside : k < 16) :
    ((reset.feedAll reads).stuckAddr minReads minBits).getLsbD k = true ↔
      AddrStuck reads minReads minBits k := by
  unfold stuckAddr AddrStuck
  rw [if_congr (nReads_lt_iff reads short minReads) rfl rfl]
  split
  next few => simp [few]
  next enough =>
    have enough := not_not.mp enough
    have nonempty := reads_nonempty positive enough
    simp only [BitVec.lt_def, popcount16_toggled]
    split
    next tight => simp [Nat.not_le.mpr tight]
    next wide =>
      have seen : ((reset.feedAll reads).addrSeenHi |||
          (reset.feedAll reads).addrSeenLo).getLsbD k = true := by
        obtain ⟨r, hr⟩ := nonempty
        rw [BitVec.getLsbD_or, Bool.or_eq_true, addrSeenHi_iff, addrSeenLo_iff reads inside]
        cases level : r.addr.getLsbD k with
        | true => exact .inl ⟨r, hr, level⟩
        | false => exact .inr ⟨r, hr, level⟩
      rw [getLsbD_seen_and_not _ _ inside, ← Bool.not_eq_true, toggled_iff reads inside,
        not_toggled_iff reads]
      simp [seen, enough, Nat.not_lt.mp wide]

theorem busUndriven_iff (short : reads.length < 2 ^ 31) :
    (reset.feedAll reads).busUndriven minReads = true ↔ Undriven reads minReads := by
  unfold busUndriven Undriven
  rw [if_congr (nReads_lt_iff reads short minReads) rfl rfl]
  split
  next few => simp [few]
  next enough =>
    have both : reads.countP (fun r => decide (r.data = 0x00#8 ∨ r.data = 0xFF#8)) =
        reads.countP (·.data = 0x00#8) + reads.countP (·.data = 0xFF#8) := by
      simp only [Bool.decide_or]
      exact countP_or_of_disjoint _ _ reads fun r _ => by
        intro ⟨zero, one⟩
        rw [decide_eq_true_iff] at zero one
        exact absurd (zero.symm.trans one) (by decide)
    have bothLe := List.countP_le_length
      (p := fun r : BusRead => decide (r.data = 0x00#8 ∨ r.data = 0xFF#8)) (l := reads)
    -- twice the count stays below 2^32 because n < 2^31
    rw [decide_eq_true_iff, gt_iff_lt, BitVec.lt_def, nReads_toNat reads short, feedAll_eq]
    simp only [reset, BitVec.zero_add, BitVec.toNat_mul, BitVec.toNat_add, BitVec.toNat_ofNat,
      both]
    have enough := not_not.mp enough
    omega

theorem getLsbD_shifted_one {w : Nat} (j k : Nat) :
    (1#w <<< j).getLsbD k = true ↔ k = j ∧ k < w := by
  rw [BitVec.getLsbD_shiftLeft]
  constructor
  · intro set
    simp only [Bool.and_eq_true, decide_eq_true_eq, Bool.not_eq_true', decide_eq_false_iff_not,
      BitVec.getLsbD_one] at set
    omega
  · rintro ⟨rfl, inside⟩
    simp [inside, Nat.zero_lt_of_lt inside]

theorem v20Checkpoints_getElem_lt {k : Nat} {cp : BusCheckpoint}
    (entry : v20Checkpoints[k]? = some cp) : k < 8 := by
  have := (List.getElem?_eq_some_iff.mp entry).1
  simp only [v20Checkpoints, List.length_cons, List.length_nil] at this
  omega

theorem checkedMask_iff (addr : U16) (k : Nat) :
    (checkedMask addr).getLsbD k = true ↔
      ∃ cp, v20Checkpoints[k]? = some cp ∧ addr = cp.addr := by
  unfold checkedMask
  rw [getLsbD_orAll_zero]
  constructor
  · rintro ⟨⟨cp, j⟩, member, set⟩
    unfold checkedBit at set
    split at set
    next same =>
      obtain ⟨rfl, _⟩ := (getLsbD_shifted_one _ _).mp set
      exact ⟨cp, List.mem_zipIdx_iff_getElem?.mp member, same.symm⟩
    next => simp at set
  · rintro ⟨cp, entry, rfl⟩
    refine ⟨(cp, k), List.mem_zipIdx_iff_getElem?.mpr entry, ?_⟩
    simp only [checkedBit, if_true]
    exact (getLsbD_shifted_one _ _).mpr ⟨rfl, v20Checkpoints_getElem_lt entry⟩

theorem failedMask_iff (addr : U16) (data : U8) (k : Nat) :
    (failedMask addr data).getLsbD k = true ↔
      ∃ cp, v20Checkpoints[k]? = some cp ∧ addr = cp.addr ∧ data ≠ cp.expected := by
  unfold failedMask
  rw [getLsbD_orAll_zero]
  constructor
  · rintro ⟨⟨cp, j⟩, member, set⟩
    unfold failedBit at set
    split at set
    next wrong =>
      obtain ⟨rfl, _⟩ := (getLsbD_shifted_one _ _).mp set
      exact ⟨cp, List.mem_zipIdx_iff_getElem?.mp member, wrong.1.symm, wrong.2⟩
    next => simp at set
  · rintro ⟨cp, entry, rfl, wrong⟩
    refine ⟨(cp, k), List.mem_zipIdx_iff_getElem?.mpr entry, ?_⟩
    simp only [failedBit, ne_eq, wrong, not_false_eq_true, and_self, if_true]
    exact (getLsbD_shifted_one _ _).mpr ⟨rfl, v20Checkpoints_getElem_lt entry⟩

theorem cpChecked_iff (k : Nat) :
    (reset.feedAll reads).cpChecked.getLsbD k = true ↔ CheckpointRead reads k := by
  rw [feedAll_eq]
  refine (getLsbD_orAll_zero _ _ _).trans ?_
  simp only [checkedMask_iff, CheckpointRead]
  constructor
  · rintro ⟨r, hr, cp, entry, same⟩
    exact ⟨cp, entry, r, hr, same⟩
  · rintro ⟨cp, entry, r, hr, same⟩
    exact ⟨r, hr, cp, entry, same⟩

theorem cpFailed_iff (k : Nat) :
    (reset.feedAll reads).cpFailed.getLsbD k = true ↔ CheckpointWrong reads k := by
  rw [feedAll_eq]
  refine (getLsbD_orAll_zero _ _ _).trans ?_
  simp only [failedMask_iff, CheckpointWrong]
  constructor
  · rintro ⟨r, hr, cp, entry, wrong⟩
    exact ⟨cp, entry, r, hr, wrong⟩
  · rintro ⟨cp, entry, r, hr, wrong⟩
    exact ⟨r, hr, cp, entry, wrong⟩

end Verdicts

section Permutation

variable {reads reads' : List BusRead} (perm : reads'.Perm reads) (minReads minBits : U32)
include perm

theorem dataStuckHi_perm (k : Nat) :
    DataStuckHi reads' minReads k ↔ DataStuckHi reads minReads k := by
  simp only [DataStuckHi, perm.length_eq, perm.mem_iff]

theorem dataStuckLo_perm (k : Nat) :
    DataStuckLo reads' minReads k ↔ DataStuckLo reads minReads k := by
  simp only [DataStuckLo, perm.length_eq, perm.mem_iff]

theorem addrStuck_perm (k : Nat) :
    AddrStuck reads' minReads minBits k ↔ AddrStuck reads minReads minBits k := by
  have toggled : AddrToggled reads' = AddrToggled reads := by
    funext k
    simp only [AddrToggled, perm.mem_iff]
  simp only [AddrStuck, perm.length_eq, perm.mem_iff, Nat.count_eq_card_filter_range, toggled]

theorem undriven_perm : Undriven reads' minReads ↔ Undriven reads minReads := by
  simp only [Undriven, perm.length_eq, perm.countP_eq]

theorem checkpointRead_perm (k : Nat) : CheckpointRead reads' k ↔ CheckpointRead reads k := by
  simp only [CheckpointRead, perm.mem_iff]

theorem checkpointWrong_perm (k : Nat) : CheckpointWrong reads' k ↔ CheckpointWrong reads k := by
  simp only [CheckpointWrong, perm.mem_iff]

theorem verdicts_perm (short : reads.length < 2 ^ 31) (positive : 1 ≤ minReads.toNat) :
    (reset.feedAll reads').verdicts minReads minBits =
      (reset.feedAll reads).verdicts minReads minBits := by
  have short' : reads'.length < 2 ^ 31 := perm.length_eq ▸ short
  unfold verdicts
  rw [Verdicts.mk.injEq]
  refine ⟨?_, ?_, ?_, ?_, ?_, ?_⟩
  · apply BitVec.eq_of_getLsbD_eq
    intro k inside
    rw [Bool.eq_iff_iff, stuckDataHi_iff _ _ short' positive inside,
      stuckDataHi_iff _ _ short positive inside, dataStuckHi_perm perm]
  · apply BitVec.eq_of_getLsbD_eq
    intro k inside
    rw [Bool.eq_iff_iff, stuckDataLo_iff _ _ short' positive inside,
      stuckDataLo_iff _ _ short positive inside, dataStuckLo_perm perm]
  · apply BitVec.eq_of_getLsbD_eq
    intro k inside
    rw [Bool.eq_iff_iff, stuckAddr_iff _ _ _ short' positive inside,
      stuckAddr_iff _ _ _ short positive inside, addrStuck_perm perm]
  · rw [Bool.eq_iff_iff, busUndriven_iff _ _ short', busUndriven_iff _ _ short,
      undriven_perm perm]
  · apply BitVec.eq_of_getLsbD_eq
    intro k _
    rw [Bool.eq_iff_iff, cpChecked_iff, cpChecked_iff, checkpointRead_perm perm]
  · apply BitVec.eq_of_getLsbD_eq
    intro k _
    rw [Bool.eq_iff_iff, cpFailed_iff, cpFailed_iff, checkpointWrong_perm perm]

end Permutation

/-- The streaming analyzer computes the batch statements, whatever the order of
the reads and their split over passes. -/
theorem verdicts_eq_batch (reads : List BusRead) (minReads minBits : U32)
    (short : reads.length < 2 ^ 31) (positive : 1 ≤ minReads.toNat) :
    let v := (reset.feedAll reads).verdicts minReads minBits
    (∀ k < 8, v.stuckDataHi.getLsbD k = true ↔ DataStuckHi reads minReads k) ∧
    (∀ k < 8, v.stuckDataLo.getLsbD k = true ↔ DataStuckLo reads minReads k) ∧
    (∀ k < 16, v.stuckAddr.getLsbD k = true ↔ AddrStuck reads minReads minBits k) ∧
    (v.busUndriven = true ↔ Undriven reads minReads) ∧
    (∀ k, v.cpChecked.getLsbD k = true ↔ CheckpointRead reads k) ∧
    (∀ k, v.cpFailed.getLsbD k = true ↔ CheckpointWrong reads k) ∧
    ∀ passes : List (List BusRead), passes.flatten.Perm reads →
      (passes.foldl feedAll reset).verdicts minReads minBits = v := by
  refine ⟨fun k => stuckDataHi_iff reads minReads short positive,
    fun k => stuckDataLo_iff reads minReads short positive,
    fun k => stuckAddr_iff reads minReads minBits short positive,
    busUndriven_iff reads minReads short, cpChecked_iff reads, cpFailed_iff reads, ?_⟩
  intro passes perm
  rw [← feedAll_flatten]
  exact verdicts_perm perm minReads minBits short positive

/-- Three reads of a machine whose D0 is stuck high, split over two passes. -/
theorem verdicts_eq_batch_d0 :
    let reads : List BusRead := [⟨0x0000#16, 0xF3#8⟩, ⟨0x0001#16, 0xC3#8⟩, ⟨0x0003#16, 0x03#8⟩]
    DataStuckHi reads 3#32 0 ∧
      ([reads.take 1, reads.drop 1].foldl feedAll reset).verdicts 3#32 6#32 =
        (reset.feedAll reads).verdicts 3#32 6#32 := by
  intro reads
  have batch := verdicts_eq_batch reads 3#32 6#32 (by decide) (by decide)
  refine ⟨⟨by decide, by decide⟩, batch.2.2.2.2.2.2 _ ?_⟩
  decide

end MsxPulse.Firmware.BusIntegrity
