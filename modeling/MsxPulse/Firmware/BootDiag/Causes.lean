import MsxPulse.Firmware.BootDiag.Anomalies
import MsxPulse.Firmware.BootDiag.ReportSize

/-!
# What the array of the possible causes holds

Each finding has a line, and the lines share an array of 400 bytes. They are all there
if and only if they have room, which is a matter of the result's fields. A round can
freeze a result for which they have not.
-/

namespace MsxPulse.Firmware

open Library CString

namespace BootDiagResult

/-- The line of an anomaly with its newline. -/
def hintSize : BootAnomaly → Nat
  | .clkAbsent => 42
  | .clkOutOfRange => 34
  | .resetStuck => 41
  | .noBusCycles => 45
  | .waitStuckLow => 30

/-- What the lines of the findings come to: for each bit of a data mask three characters, for
each of an address mask three or four. -/
def hintsSize (r : BootDiagResult) : Nat :=
  (r.anomalies.map hintSize).sum +
    (if r.stuckDataHi = 0 then 0 else bitsSize (r.stuckDataHi.setWidth 32) 8 + 37) +
    (if r.stuckDataLo = 0 then 0 else bitsSize (r.stuckDataLo.setWidth 32) 8 + 37) +
    (if r.stuckAddrMask = 0 then 0 else bitsSize (r.stuckAddrMask.setWidth 32) 16 + 31) +
    (if r.busUndriven then 54 else 0) + (if r.cpFailed = 0 then 0 else 40)

theorem length_unlines_hintLines (r : BootDiagResult) :
    (unlines r.hintLines).length = r.hintsSize := by
  have one (a : BootAnomaly) : a.hint.length + 1 = hintSize a := by
    cases a <;> exact congrArg (· + 1) (length_ascii rfl)
  have listed (flagged : List BootAnomaly) :
      (unlines (flagged.map BootAnomaly.hint)).length = (flagged.map hintSize).sum := by
    induction flagged with
    | nil => rfl
    | cons a rest ih =>
      have here := one a
      simp only [List.map_cons, unlines_cons, List.sum_cons, List.length_append,
        List.length_cons]
      omega
  rw [size_hintLines, listed, hintsSize]
  simp only [widen_eq_zero (show 8 ≤ 32 by decide), widen_eq_zero (show 16 ≤ 32 by decide)]

/-! ## Which bits a line names -/

/-- A line that names the bits of a mask names each of them. -/
theorem named_of_bitsHint {letter hint : List U8} {mask : U32} {nbits i : Nat} (inside : i < nbits)
    (bit : bitSet mask i = true) : ∃ l ∈ bitsHint letter mask nbits hint,
      letter ++ decimal i ++ ascii " " <:+: l ∧ hint <:+ l := by
  have some : mask ≠ 0 := by
    rintro rfl
    simp at bit
  have named : i ∈ bits mask nbits := List.mem_filter.mpr ⟨List.mem_range.mpr inside, bit⟩
  obtain ⟨first, rest, split⟩ := List.append_of_mem named
  refine ⟨_, by rw [bitsHint, if_neg some]; exact List.mem_singleton_self _, ?_, ?_⟩
  · rw [split, List.map_append, List.map_cons, List.flatten_append, List.flatten_cons]
    exact ⟨(first.map fun i => letter ++ decimal i ++ ascii " ").flatten,
      (rest.map fun i => letter ++ decimal i ++ ascii " ").flatten ++ hint,
      by simp only [List.append_assoc]⟩
  · exact List.suffix_append _ _

/-! ## Whether the fallback can be taken for a finding -/

theorem take_two_of_prefix {l rest : List U8} (h : ascii "bo" <+: l ++ lf :: rest) :
    l.take 2 = ascii "bo" := by
  match l, h with
  | [], h => exact absurd (List.cons_prefix_cons.mp h).1 (by decide)
  | [x], h =>
    exact absurd (List.cons_prefix_cons.mp (List.cons_prefix_cons.mp h).2).1 (by decide)
  | x :: y :: l, h =>
    obtain ⟨rfl, behind⟩ := List.cons_prefix_cons.mp h
    obtain ⟨rfl, -⟩ := List.cons_prefix_cons.mp behind
    rfl

theorem fallback_starts (r : BootDiagResult) : ascii "bo" <+: r.fallbackLine := by
  unfold fallbackLine
  split
  · exact ⟨_, rfl⟩
  · exact ⟨_, rfl⟩

theorem take_two_ne {l : List U8} (other : l.head? ≠ some 98) : l.take 2 ≠ ascii "bo" := by
  intro same
  have head : (l.take 2).head? = l.head? := by cases l <;> rfl
  rw [same] at head
  exact other head.symm

theorem bitsHint_start {letter : U8} {hint : List U8} (first : letter ≠ 98)
    (behind : hint.head? ≠ some 98) (mask : U32) (nbits : Nat) :
    ∀ l ∈ bitsHint [letter] mask nbits hint, l.take 2 ≠ ascii "bo" := by
  unfold bitsHint
  split
  · simp
  · simp only [List.mem_singleton, forall_eq]
    refine take_two_ne ?_
    cases bits mask nbits with
    | nil => exact behind
    | cons i rest => exact fun same => first (Option.some.inj same)

theorem start_ite {c : Prop} [Decidable c] {l : List U8} (h : l.take 2 ≠ ascii "bo") :
    ∀ m ∈ (if c then [l] else []), m.take 2 ≠ ascii "bo" := by
  split
  · simpa using h
  · simp

/-- No finding's line begins like the fallback. -/
theorem hintLines_start (r : BootDiagResult) : ∀ l ∈ r.hintLines, l.take 2 ≠ ascii "bo" := by
  unfold hintLines
  simp only [List.forall_mem_append, List.forall_mem_map]
  refine ⟨⟨⟨⟨⟨fun a _ => ?_, ?_⟩, ?_⟩, ?_⟩, ?_⟩, ?_⟩
  · cases a <;> exact take_two_ne (by decide)
  · exact bitsHint_start (show (68 : U8) ≠ 98 by decide) (by decide) _ _
  · exact bitsHint_start (show (68 : U8) ≠ 98 by decide) (by decide) _ _
  · exact bitsHint_start (show (65 : U8) ≠ 98 by decide) (by decide) _ _
  · exact start_ite (by decide)
  · exact start_ite (take_two_ne fun same => absurd (Option.some.inj same) (by decide))

/-- Each set bit has its name in the line of its mask. -/
theorem named_hintLines (r : BootDiagResult) :
    (∀ i, bitSet r.stuckDataHi i = true → ∃ l ∈ r.hintLines,
        ascii "D" ++ decimal i ++ ascii " " <:+: l ∧
          ascii "stuck hi - buffer (LVC245) or driver" <:+ l) ∧
      (∀ i, bitSet r.stuckDataLo i = true → ∃ l ∈ r.hintLines,
        ascii "D" ++ decimal i ++ ascii " " <:+: l ∧
          ascii "stuck lo - buffer (LVC245) or driver" <:+ l) ∧
      ∀ i, bitSet r.stuckAddrMask i = true → ∃ l ∈ r.hintLines,
        ascii "A" ++ decimal i ++ ascii " " <:+: l ∧
          ascii "stuck - line or address decode" <:+ l := by
  have widen {w : Nat} (narrow : w ≤ 32) {mask : BitVec w} {i : Nat} (bit : bitSet mask i = true) :
      i < w ∧ bitSet (mask.setWidth 32) i = true := by
    rw [bitSet_eq_getLsbD] at bit ⊢
    have inside := BitVec.lt_of_getLsbD bit
    rw [BitVec.getLsbD_setWidth, bit, decide_eq_true (show i < 32 by omega)]
    exact ⟨inside, rfl⟩
  refine ⟨fun i bit => ?_, fun i bit => ?_, fun i bit => ?_⟩
  · obtain ⟨inside, wide⟩ := widen (by decide) bit
    obtain ⟨l, member, named⟩ := named_of_bitsHint inside wide
    exact ⟨l, by simp [hintLines, member], named⟩
  · obtain ⟨inside, wide⟩ := widen (by decide) bit
    obtain ⟨l, member, named⟩ := named_of_bitsHint inside wide
    exact ⟨l, by simp [hintLines, member], named⟩
  · obtain ⟨inside, wide⟩ := widen (by decide) bit
    obtain ⟨l, member, named⟩ := named_of_bitsHint inside wide
    exact ⟨l, by simp [hintLines, member], named⟩

/-! ## The array -/

/-- What the array has of the findings: all of their lines, each behind those of the findings
before it and with the name of every bit, and the line for none if there is none. -/
structure CausesComplete (r : BootDiagResult) (out : List U8) : Prop where
  lines : ∀ before l after, r.hintLines = before ++ l :: after → unlines (before ++ [l]) <+: out
  dataHi : ∀ i, bitSet r.stuckDataHi i = true → ∃ l ∈ r.hintLines,
    ascii "D" ++ decimal i ++ ascii " " <:+: l ∧ ascii "stuck hi - buffer (LVC245) or driver" <:+ l
  dataLo : ∀ i, bitSet r.stuckDataLo i = true → ∃ l ∈ r.hintLines,
    ascii "D" ++ decimal i ++ ascii " " <:+: l ∧ ascii "stuck lo - buffer (LVC245) or driver" <:+ l
  addr : ∀ i, bitSet r.stuckAddrMask i = true → ∃ l ∈ r.hintLines,
    ascii "A" ++ decimal i ++ ascii " " <:+: l ∧ ascii "stuck - line or address decode" <:+ l
  fallback : unlines [r.fallbackLine] <+: out ↔ r.hintLines = []

theorem held_causes (r : BootDiagResult) (causes : CharArray 400) :
    text (r.possibleCauses causes.mem).mem = r.fullCauses.take 399 := by
  have room : 0 < causes.mem.length := by
    rw [causes.length_mem]
    decide
  have holds := (r.possibleCauses_printed room).holds
  rw [causes.length_mem] at holds
  exact holds.text

theorem fallback_held (r : BootDiagResult) : (unlines [r.fallbackLine]).length ≤ 399 := by
  have name := length_nameAt_le (by decide) length_shortName_le r.firstMissing
  rw [unlines_singleton, List.length_append, length_fallbackLine]
  show _ + 1 ≤ 399
  split <;> omega

theorem size_of_complete {r : BootDiagResult} {causes : CharArray 400}
    (complete : r.CausesComplete (text (r.possibleCauses causes.mem).mem)) : r.hintsSize ≤ 399 := by
  rw [← length_unlines_hintLines]
  by_cases none : r.hintLines = []
  · rw [none]
    exact Nat.zero_le 399
  · -- The last finding's line ends the text.
    have last := complete.lines r.hintLines.dropLast (r.hintLines.getLast none) []
      (List.dropLast_append_getLast none).symm
    rw [List.dropLast_append_getLast none, held_causes] at last
    exact last.length_le.trans (List.length_take_le 399 _)

/-- The array has all of the findings if and only if their lines come to 399 characters at
most. -/
theorem causes_complete_iff (r : BootDiagResult) (causes : CharArray 400) :
    r.CausesComplete (text (r.possibleCauses causes.mem).mem) ↔ r.hintsSize ≤ 399 := by
  refine ⟨size_of_complete, fun fits => ?_⟩
  obtain ⟨dataHi, dataLo, addr⟩ := r.named_hintLines
  rw [held_causes]
  by_cases none : r.hintLines = []
  · have all : r.fullCauses.take 399 = unlines [r.fallbackLine] := by
      rw [fullCauses_eq, causeLines, if_pos none]
      exact List.take_of_length_le r.fallback_held
    rw [all]
    refine ⟨fun before l after empty => ?_, dataHi, dataLo, addr,
      iff_of_true (List.prefix_refl _) none⟩
    rw [none] at empty
    exact absurd empty.symm (List.append_ne_nil_of_right_ne_nil before (List.cons_ne_nil l after))
  · have all : r.fullCauses.take 399 = unlines r.hintLines := by
      rw [fullCauses_eq, causeLines, if_neg none]
      exact List.take_of_length_le (r.length_unlines_hintLines ▸ fits)
    rw [all]
    refine ⟨fun before l after split => ?_, dataHi, dataLo, addr, iff_of_false ?_ none⟩
    · refine ⟨unlines after, ?_⟩
      rw [split, unlines_append, unlines_append, unlines_cons l after, unlines_singleton,
        List.append_assoc, List.append_assoc]
      rfl
    · intro taken
      obtain ⟨l, rest, cons⟩ := List.exists_cons_of_ne_nil none
      rw [cons, unlines_cons l rest] at taken
      have first := take_two_of_prefix ((r.fallback_starts.trans
        (unlines_singleton r.fallbackLine ▸ List.prefix_append _ _)).trans taken)
      exact r.hintLines_start l (cons ▸ List.mem_cons_self) first

end BootDiagResult

/-! ## A round whose findings do not fit -/

namespace BootDiag.Observed

/-- No clock, /RESET held and /WAIT low. -/
def halted : BusProbeSnapshot :=
  { BusProbe.unpublished with
    reset := .inReset
    ctrl := fun line => if line = .wait then .stuckLo else .active }

/-- A clock of 5 MHz. -/
def fast : BusProbeSnapshot := { BusProbe.unpublished with clkHz := 5000000#32 }

/-- The machine halts in the first pass, is dead in the second and reads an open bus at the 64
lowest addresses in the third. -/
def everyFinding : List PassEvent :=
  [.start, .tick 0 fast .reset] ++ passAt 1 halted [] ++ passAt 9000 fast [] ++
    passAt 18000 fast ((List.range 64).map fun a => .read (BitVec.ofNat 16 a) 0xFF#8)

theorem everyFinding_cut : ¬∀ (events : List PassEvent) (causes : CharArray 400),
    (machine.final initial events).diag.phase = .done →
      (machine.final initial events).diag.result.CausesComplete
        (text ((machine.final initial events).diag.result.possibleCauses causes.mem).mem) := by
  intro complete
  have fits := BootDiagResult.size_of_complete
    (complete everyFinding ⟨List.replicate 400 0, List.length_replicate⟩ (by decide +kernel))
  exact absurd fits (by decide +kernel)

end BootDiag.Observed

end MsxPulse.Firmware
