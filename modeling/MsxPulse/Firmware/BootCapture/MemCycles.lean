import MsxPulse.Firmware.BootCapture

/-!
# Which words of the memory ring become events

The capture takes one word for each pulse of /MREQ, so also for the refresh cycle after
each fetch. The decoder tells a fetch by /M1 and a write by /WR, and takes every other
pulse for a read; the comments on `bus_event_kind_t` say which lines each cycle has LOW.
-/

namespace MsxPulse.Firmware.BootCapture

/-- The active-low line is asserted in the word. -/
def Low (raw : U32) (line : Nat) : Prop := bitSet raw line = false

instance (raw : U32) (line : Nat) : Decidable (Low raw line) :=
  inferInstanceAs (Decidable (bitSet raw line = false))

/-- The memory cycles of `bus_event_kind_t`. -/
def Documented (raw : U32) : BusEventKind → Prop
  | .fetch => Low raw rawBitMreq ∧ Low raw rawBitRd ∧ Low raw rawBitM1
  | .memRead => Low raw rawBitMreq ∧ Low raw rawBitRd ∧ ¬Low raw rawBitM1
  | .memWrite => Low raw rawBitMreq ∧ Low raw rawBitWr
  | .ioRead => False
  | .ioWrite => False

instance (raw : U32) (kind : BusEventKind) : Decidable (Documented raw kind) := by
  cases kind <;> unfold Documented <;> infer_instance

/-- The word is one of the memory cycles. -/
def IsCycle (raw : U32) : Prop :=
  Documented raw .fetch ∨ Documented raw .memRead ∨ Documented raw .memWrite

instance (raw : U32) : Decidable (IsCycle raw) := by
  unfold IsCycle
  infer_instance

/-- The decoder yields an event for the memory cycles, with the kind of the cycle, and
for no other word. -/
def Exact (raw : U32) : Prop :=
  (∀ ev, decodeMem raw = some ev → Documented raw ev.kind) ∧
    (IsCycle raw → (decodeMem raw).isSome = true)

/-- /MREQ comes with /RD, or with /WR and without /M1. -/
def Qualified (raw : U32) : Prop :=
  Low raw rawBitMreq → Low raw rawBitRd ∨ (Low raw rawBitWr ∧ ¬Low raw rawBitM1)

theorem decodeMem_of_high {raw : U32} (high : ¬Low raw rawBitMreq) : decodeMem raw = none := by
  have set : bitSet raw rawBitMreq = true := eq_true_of_ne_false high
  rw [decodeMem, if_pos set]

theorem decodeMem_of_low {raw : U32} (low : Low raw rawBitMreq) : ∃ ev, decodeMem raw = some ev ∧
    ev.addr = (raw &&& 0xFFFF#32).setWidth 16 ∧
    ev.kind = (if Low raw rawBitM1 then .fetch else if Low raw rawBitWr then .memWrite
      else .memRead) ∧
    ev.dataValid = decide (ev.kind ≠ .memRead) := by
  rw [decodeMem, if_neg (Bool.eq_false_iff.mp low)]
  refine ⟨_, rfl, rfl, ?_, rfl⟩
  simp only [Bool.not_eq_true']
  rfl

theorem exact_iff (raw : U32) : Exact raw ↔ Qualified raw := by
  by_cases low : Low raw rawBitMreq
  · obtain ⟨ev, decoded, -, kind, -⟩ := decodeMem_of_low low
    have exact : Exact raw ↔ Documented raw ev.kind := by
      unfold Exact
      rw [decoded]
      exact ⟨fun h => h.1 ev rfl, fun h => ⟨fun _ same => Option.some.inj same ▸ h, fun _ => rfl⟩⟩
    rw [exact, kind]
    by_cases m1 : Low raw rawBitM1
    · rw [if_pos m1]
      refine ⟨fun fetch _ => .inl fetch.2.1, fun qualified => ?_⟩
      rcases qualified low with rd | write
      · exact ⟨low, rd, m1⟩
      · exact absurd m1 write.2
    · rw [if_neg m1]
      by_cases wr : Low raw rawBitWr
      · rw [if_pos wr]
        exact iff_of_true ⟨low, wr⟩ fun _ => .inr ⟨wr, m1⟩
      · rw [if_neg wr]
        refine ⟨fun read _ => .inl read.2.1, fun qualified => ?_⟩
        rcases qualified low with rd | write
        · exact ⟨low, rd, m1⟩
        · exact absurd write.1 wr
  · refine iff_of_true ⟨fun ev decoded => ?_, fun cycle => ?_⟩ fun mreq => absurd mreq low
    · rw [decodeMem_of_high low] at decoded
      cases decoded
    · rcases cycle with cycle | cycle | cycle <;> exact absurd cycle.1 low

/-- What the words of a run that are not memory cycles do to the detector. -/
theorem feed_of_not_cycle {raw : U32} (qualified : Qualified raw) (other : ¬IsCycle raw)
    (s : BootDetect) : feedDecoded decodeMem s raw = s := by
  cases decoded : decodeMem raw with
  | none => rw [feedDecoded, decoded]
  | some ev =>
    have documented := ((exact_iff raw).mpr qualified).1 ev decoded
    refine absurd ?_ other
    cases kind : ev.kind with
    | fetch => exact .inl (kind ▸ documented)
    | memRead => exact .inr (.inl (kind ▸ documented))
    | memWrite => exact .inr (.inr (kind ▸ documented))
    | ioRead =>
      rw [kind] at documented
      exact documented.elim
    | ioWrite =>
      rw [kind] at documented
      exact documented.elim

theorem feed_cycles (run : List U32) (qualified : ∀ raw ∈ run, Qualified raw) (s : BootDetect) :
    run.foldl (feedDecoded decodeMem) s =
      (run.filter fun raw => IsCycle raw).foldl (feedDecoded decodeMem) s := by
  induction run generalizing s with
  | nil => rfl
  | cons raw run ih =>
    have rest := ih fun raw mem => qualified raw (List.mem_cons_of_mem _ mem)
    by_cases cycle : IsCycle raw
    · rw [List.filter_cons_of_pos (by simpa using cycle), List.foldl_cons, List.foldl_cons]
      exact rest _
    · rw [List.filter_cons_of_neg (by simpa using cycle), List.foldl_cons,
        feed_of_not_cycle (qualified raw List.mem_cons_self) cycle]
      exact rest s

/-- The memory cycles of a run, and no other words, become the events of their kind, and
the other words leave the detector alone: if and only if /MREQ comes with /RD in each
word, or with /WR and without /M1. -/
theorem cycles_only_iff (run : List U32) :
    ((∀ raw ∈ run, Exact raw) ∧ ∀ s : BootDetect, run.foldl (feedDecoded decodeMem) s =
        (run.filter fun raw => IsCycle raw).foldl (feedDecoded decodeMem) s) ↔
      ∀ raw ∈ run, Qualified raw := by
  constructor
  · intro h raw mem
    exact (exact_iff raw).mp (h.1 raw mem)
  · intro qualified
    exact ⟨fun raw mem => (exact_iff raw).mpr (qualified raw mem), feed_cycles run qualified⟩

/-- One refresh cycle at 0x4000, after the reset of the detector. -/
theorem refresh_scan : ¬∀ (run : List U32) (s : BootDetect),
    run.foldl (feedDecoded decodeMem) s =
      (run.filter fun raw => IsCycle raw).foldl (feedDecoded decodeMem) s := by
  intro h
  exact absurd (h [0x1B004000#32] BootDetect.reset) (by decide)

end MsxPulse.Firmware.BootCapture
