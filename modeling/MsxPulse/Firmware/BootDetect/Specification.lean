import MsxPulse.Firmware.BootDetect

/-!
# The detector as a declarative specification

The milestone table, the latest trustworthy header byte and the two derived
phases are stated over the list of events alone. Phase bits and side-effect
flags depend on the set of events; the header latch depends on their order.
-/

namespace MsxPulse.Firmware

open BootPhase

/-- The bus events that confirm each phase. -/
def BootBusEvent.Triggers (ev : BootBusEvent) : BootPhase → Prop
  | resetVector => ev.kind = .fetch ∧ ev.addr = 0x0000#16
  | biosEntry =>
      (ev.kind = .fetch ∧ ev.addr = 0x02D7#16) ∨
        (ev.kind = .ioWrite ∧ (ev.port = 0xAB#8 ∨ ev.port = 0xA8#8 ∨ ev.port = 0xAA#8))
  | slotRamProbe =>
      (ev.kind = .memWrite ∧ (ev.addr = 0xBF00#16 ∨ 0xC000#16 ≤ ev.addr)) ∨
        (ev.kind = .ioWrite ∧ ev.port = 0xA8#8)
  | biosInitDone => ev.kind = .fetch ∧ ev.addr = 0x03F8#16
  | basicHandoff => ev.kind = .fetch ∧ ev.addr = 0x2680#16
  | basicColdstart =>
      (ev.kind = .fetch ∧ ev.addr = 0x7C76#16) ∨ (ev.kind = .memWrite ∧ ev.addr = 0xFD9A#16)
  | basicBiosVecs =>
      ev.kind = .fetch ∧ (ev.addr = 0x003E#16 ∨ ev.addr = 0x003B#16 ∨
        ev.addr = 0x006F#16 ∨ ev.addr = 0x0069#16)
  | vdpInit => ev.kind = .ioWrite ∧ (ev.port = 0x98#8 ∨ ev.port = 0x99#8)
  | cartScan =>
      (ev.kind = .fetch ∧ ev.addr = 0x7D75#16) ∨
        (ev.kind = .memRead ∧ (ev.addr = 0x4000#16 ∨ ev.addr = 0x4001#16))

instance (ev : BootBusEvent) (p : BootPhase) : Decidable (ev.Triggers p) := by
  cases p <;> unfold BootBusEvent.Triggers <;> infer_instance

/-- An I/O write to one of the PPI ports. -/
def BootBusEvent.PpiWrite (ev : BootBusEvent) : Prop :=
  ev.kind = .ioWrite ∧ (ev.port = 0xAB#8 ∨ ev.port = 0xA8#8 ∨ ev.port = 0xAA#8)

/-- A write to the first BASIC work-area cell. -/
def BootBusEvent.WorkareaWrite (ev : BootBusEvent) : Prop :=
  ev.kind = .memWrite ∧ ev.addr = 0xFD9A#16

/-- A memory read at `addr` whose data byte can be trusted. -/
def BootBusEvent.HeaderRead (addr : U16) (ev : BootBusEvent) : Prop :=
  ev.kind = .memRead ∧ ev.addr = addr ∧ ev.dataValid = true

instance (ev : BootBusEvent) : Decidable ev.PpiWrite := inferInstanceAs (Decidable (_ ∧ _))
instance (ev : BootBusEvent) : Decidable ev.WorkareaWrite := inferInstanceAs (Decidable (_ ∧ _))
instance (addr : U16) (ev : BootBusEvent) : Decidable (ev.HeaderRead addr) :=
  inferInstanceAs (Decidable (_ ∧ _ ∧ _))

/-- The byte of the last trustworthy read at `addr`, `0xFF` if there is none. -/
def lastHeader (addr : U16) (events : List BootBusEvent) : U8 :=
  ((events.filter (·.HeaderRead addr)).getLast?).elim 0xFF#8 (·.data)

@[simp] theorem lastHeader_concat (addr : U16) (events : List BootBusEvent) (ev : BootBusEvent) :
    lastHeader addr (events ++ [ev]) =
      if ev.HeaderRead addr then ev.data else lastHeader addr events := by
  unfold lastHeader
  rw [List.filter_append]
  by_cases hit : ev.HeaderRead addr <;> simp [hit]

/-- Some prefix of the events left `41` and `42` in the header latches. -/
def HeaderSeen (events : List BootBusEvent) : Prop :=
  ∃ start, start <+: events ∧ lastHeader 0x4000#16 start = 0x41#8 ∧
    lastHeader 0x4001#16 start = 0x42#8

namespace BootDetect

section Step

variable (s : BootDetect) (ev : BootBusEvent)

/-- FFFF and FE00 are tested for separately but lie above C000. -/
theorem ramProbe_iff (addr : U16) :
    (addr = 0xFFFF#16 ∨ addr = 0xBF00#16 ∨ addr = 0xFE00#16 ∨ addr ≥ 0xC000#16) ↔
      (addr = 0xBF00#16 ∨ 0xC000#16 ≤ addr) := by
  constructor
  · rintro (rfl | rfl | rfl | high)
    · exact .inr (by decide)
    · exact .inl rfl
    · exact .inr (by decide)
    · exact .inr high
  · rintro (rfl | high)
    · exact .inr (.inl rfl)
    · exact .inr (.inr (.inr high))

/-- One event sets exactly the phases it triggers. -/
theorem observed_feed (p : BootPhase) :
    (s.feed ev).observed p = (s.observed p || decide (ev.Triggers p)) := by
  unfold feed
  cases kind : ev.kind with
  | fetch =>
    dsimp only
    split_ifs <;> cases p <;> simp_all [BootBusEvent.Triggers]
    -- fetch 7D75 is none of the four vectors
    grind
  | memRead =>
    dsimp only
    split_ifs <;> cases p <;> simp_all [BootBusEvent.Triggers]
  | memWrite =>
    simp only [ramProbe_iff]
    split_ifs <;> cases p <;> simp_all [BootBusEvent.Triggers, -BitVec.not_le]
  | ioRead => cases p <;> simp [BootBusEvent.Triggers, kind]
  | ioWrite =>
    dsimp only
    split_ifs <;> cases p <;> simp_all [BootBusEvent.Triggers]
    -- the PPI and VDP ports are disjoint
    all_goals grind

theorem feed_earlyPpiWrites :
    (s.feed ev).earlyPpiWrites = (s.earlyPpiWrites || decide ev.PpiWrite) := by
  unfold feed
  cases kind : ev.kind with
  | fetch => dsimp only; split_ifs <;> simp [BootBusEvent.PpiWrite, kind]
  | memRead => dsimp only; split_ifs <;> simp [BootBusEvent.PpiWrite, kind]
  | memWrite => dsimp only; split_ifs <;> simp [BootBusEvent.PpiWrite, kind]
  | ioRead => simp [BootBusEvent.PpiWrite, kind]
  | ioWrite => dsimp only; split_ifs <;> simp_all [BootBusEvent.PpiWrite]

theorem feed_basicWorkareaInit :
    (s.feed ev).basicWorkareaInit = (s.basicWorkareaInit || decide ev.WorkareaWrite) := by
  unfold feed
  cases kind : ev.kind with
  | fetch => dsimp only; split_ifs <;> simp [BootBusEvent.WorkareaWrite, kind]
  | memRead => dsimp only; split_ifs <;> simp [BootBusEvent.WorkareaWrite, kind]
  | memWrite => dsimp only; split_ifs <;> simp_all [BootBusEvent.WorkareaWrite]
  | ioRead => simp [BootBusEvent.WorkareaWrite, kind]
  | ioWrite => dsimp only; split_ifs <;> simp [BootBusEvent.WorkareaWrite, kind]

/-- The header fields of the state after one event. -/
theorem feed_header :
    ((s.feed ev).header4000, (s.feed ev).header4001, (s.feed ev).headerRead) =
      let low := if ev.HeaderRead 0x4000#16 then ev.data else s.header4000
      let high := if ev.HeaderRead 0x4001#16 then ev.data else s.header4001
      (low, high, s.headerRead ||
        decide ((ev.HeaderRead 0x4000#16 ∨ ev.HeaderRead 0x4001#16) ∧
          low = 0x41#8 ∧ high = 0x42#8)) := by
  unfold feed
  cases kind : ev.kind with
  | fetch => dsimp only; split_ifs <;> simp_all [BootBusEvent.HeaderRead]
  | memRead =>
    dsimp only
    by_cases valid : ev.dataValid = true <;> by_cases low : ev.addr = 0x4000#16 <;>
      by_cases high : ev.addr = 0x4001#16 <;>
      simp [BootBusEvent.HeaderRead, latchHeader, kind, valid, low, high]
    all_goals split_ifs <;> simp_all
  | memWrite => dsimp only; split_ifs <;> simp_all [BootBusEvent.HeaderRead]
  | ioRead => simp [BootBusEvent.HeaderRead, kind]
  | ioWrite => dsimp only; split_ifs <;> simp_all [BootBusEvent.HeaderRead]

theorem setPhase_high (p : BootPhase) {k : Nat} (high : BootPhase.count ≤ k) :
    (s.setPhase p).phaseFlags.getLsbD k = s.phaseFlags.getLsbD k := by
  have below := p.index_lt
  have apart : ¬ k - p.index = 0 := by omega
  simp [apart]

/-- No event touches a bit above the nine phases. -/
theorem feed_high {k : Nat} (high : BootPhase.count ≤ k) :
    (s.feed ev).phaseFlags.getLsbD k = s.phaseFlags.getLsbD k := by
  unfold feed
  cases ev.kind <;> dsimp only <;> split_ifs <;>
    simp only [latchHeader_phaseFlags, setPhase_high _ _ high]

end Step

section Derived

/-- The first loop of `recompute_derived` finds the highest set bit below `n`. -/
theorem foldl_range_last (set : Nat → Bool) (n : Nat) :
    let last := (List.range n).foldl (fun last i => if set i then (i : Int) else last) (-1)
    (last = -1 ∧ ∀ i < n, set i = false) ∨
      ∃ i < n, last = i ∧ set i = true ∧ ∀ j < n, set j = true → j ≤ i := by
  induction n with
  | zero => exact .inl ⟨rfl, fun i hi => absurd hi (Nat.not_lt_zero i)⟩
  | succ n ih =>
    simp only [List.range_succ, List.foldl_append, List.foldl_cons, List.foldl_nil] at ih ⊢
    by_cases here : set n = true
    · exact .inr ⟨n, Nat.lt_succ_self n, by simp [here], here, fun j hj _ => Nat.le_of_lt_succ hj⟩
    · simp only [here]
      rcases ih with ⟨value, none⟩ | ⟨i, hi, value, set_i, highest⟩
      · refine .inl ⟨value, fun i hi => ?_⟩
        rcases Nat.lt_succ_iff_lt_or_eq.mp hi with below | rfl
        · exact none i below
        · simpa using here
      · refine .inr ⟨i, Nat.lt_succ_of_lt hi, value, set_i, fun j hj set_j => ?_⟩
        rcases Nat.lt_succ_iff_lt_or_eq.mp hj with below | rfl
        · exact highest j below set_j
        · exact absurd set_j here

/-- `last_confirmed` is the highest set phase, or -1. -/
def LastConfirmed (s : BootDetect) (set : BootPhase → Prop) : Prop :=
  (s.lastConfirmed = -1 ∧ ∀ p, ¬ set p) ∨
    ∃ p : BootPhase, s.lastConfirmed = p.index ∧ set p ∧ ∀ q, set q → q.index ≤ p.index

/-- `first_missing` is the lowest unset phase, or `BP_PHASE_COUNT`. -/
def FirstMissing (s : BootDetect) (set : BootPhase → Prop) : Prop :=
  (s.firstMissing = BootPhase.count ∧ ∀ p, set p) ∨
    ∃ p : BootPhase, s.firstMissing = p.index ∧ ¬ set p ∧ ∀ q, ¬ set q → p.index ≤ q.index

variable {s : BootDetect} (derived : s.Derived)
include derived

theorem lastConfirmed_spec : s.LastConfirmed (s.observed · = true) := by
  unfold LastConfirmed
  rw [derived.1]
  rcases foldl_range_last (bitSet s.phaseFlags) BootPhase.count with
    ⟨value, none⟩ | ⟨i, hi, value, set, highest⟩
  · exact .inl ⟨value, fun p => by simpa [observed] using none p.index p.index_lt⟩
  · obtain ⟨p, rfl⟩ := BootPhase.exists_index hi
    exact .inr ⟨p, value, set, fun q hq => highest q.index q.index_lt hq⟩

theorem firstMissing_spec : s.FirstMissing (s.observed · = true) := by
  unfold FirstMissing
  rw [derived.2, lowestUnset]
  cases found : (List.range BootPhase.count).find? (!bitSet s.phaseFlags ·) with
  | none =>
    refine .inl ⟨rfl, fun p => ?_⟩
    have := List.find?_eq_none.mp found p.index (List.mem_range.mpr p.index_lt)
    simpa [observed] using this
  | some i =>
    obtain ⟨unset, member, lowest⟩ := List.find?_range_eq_some.mp found
    obtain ⟨p, rfl⟩ := BootPhase.exists_index (List.mem_range.mp member)
    refine .inr ⟨p, rfl, by simpa [observed] using unset, fun q hq => ?_⟩
    by_contra below
    have := lowest q.index (Nat.lt_of_not_le below)
    exact hq (by simpa [observed] using this)

end Derived

section Run

variable (events : List BootBusEvent)

theorem observed_iff (p : BootPhase) :
    (reset.feedAll events).observed p = true ↔ ∃ ev ∈ events, ev.Triggers p := by
  induction events using List.reverseRecOn with
  | nil => cases p <;> decide
  | append_singleton events ev ih =>
    rw [feedAll_concat, observed_feed, Bool.or_eq_true, ih, decide_eq_true_iff]
    simp [or_and_right, exists_or]

theorem earlyPpiWrites_iff :
    (reset.feedAll events).earlyPpiWrites = true ↔ ∃ ev ∈ events, ev.PpiWrite := by
  induction events using List.reverseRecOn with
  | nil => decide
  | append_singleton events ev ih =>
    rw [feedAll_concat, feed_earlyPpiWrites, Bool.or_eq_true, ih, decide_eq_true_iff]
    simp [or_and_right, exists_or]

theorem basicWorkareaInit_iff :
    (reset.feedAll events).basicWorkareaInit = true ↔ ∃ ev ∈ events, ev.WorkareaWrite := by
  induction events using List.reverseRecOn with
  | nil => decide
  | append_singleton events ev ih =>
    rw [feedAll_concat, feed_basicWorkareaInit, Bool.or_eq_true, ih, decide_eq_true_iff]
    simp [or_and_right, exists_or]

theorem header4000_eq :
    (reset.feedAll events).header4000 = lastHeader 0x4000#16 events := by
  induction events using List.reverseRecOn with
  | nil => rfl
  | append_singleton events ev ih =>
    have step := congrArg Prod.fst (feed_header (reset.feedAll events) ev)
    rw [feedAll_concat, lastHeader_concat, ← ih]
    exact step

theorem header4001_eq :
    (reset.feedAll events).header4001 = lastHeader 0x4001#16 events := by
  induction events using List.reverseRecOn with
  | nil => rfl
  | append_singleton events ev ih =>
    have step := congrArg (·.2.1) (feed_header (reset.feedAll events) ev)
    rw [feedAll_concat, lastHeader_concat, ← ih]
    exact step

theorem headerSeen_concat (ev : BootBusEvent) :
    HeaderSeen (events ++ [ev]) ↔ HeaderSeen events ∨
      (lastHeader 0x4000#16 (events ++ [ev]) = 0x41#8 ∧
        lastHeader 0x4001#16 (events ++ [ev]) = 0x42#8) := by
  constructor
  · rintro ⟨start, initial, bytes⟩
    rcases List.prefix_concat_iff.mp initial with whole | earlier
    · exact .inr (whole ▸ bytes)
    · exact .inl ⟨start, earlier, bytes⟩
  · rintro (⟨start, initial, bytes⟩ | bytes)
    · exact ⟨start, initial.trans (List.prefix_append events [ev]), bytes⟩
    · exact ⟨_, List.prefix_refl _, bytes⟩

theorem headerRead_iff : (reset.feedAll events).headerRead = true ↔ HeaderSeen events := by
  induction events using List.reverseRecOn with
  | nil =>
    constructor
    · intro impossible
      exact absurd impossible (by decide)
    · rintro ⟨start, initial, low, _⟩
      rw [List.prefix_nil.mp initial] at low
      exact absurd low (by decide)
  | append_singleton events ev ih =>
    have step := congrArg (·.2.2) (feed_header (reset.feedAll events) ev)
    simp only [header4000_eq, header4001_eq] at step
    rw [feedAll_concat, step, Bool.or_eq_true, ih, decide_eq_true_iff, headerSeen_concat,
      lastHeader_concat, lastHeader_concat]
    constructor
    · rintro (seen | ⟨_, bytes⟩)
      · exact .inl seen
      · exact .inr bytes
    · rintro (seen | bytes)
      · exact .inl seen
      · by_cases latched : ev.HeaderRead 0x4000#16 ∨ ev.HeaderRead 0x4001#16
        · exact .inr ⟨latched, bytes⟩
        · -- nothing was latched, so the bytes were already there
          have before := not_or.mp latched
          rw [if_neg before.1, if_neg before.2] at bytes
          exact .inl ⟨events, List.prefix_refl _, bytes⟩

theorem phaseFlags_high {k : Nat} (high : BootPhase.count ≤ k) :
    (reset.feedAll events).phaseFlags.getLsbD k = false := by
  induction events using List.reverseRecOn with
  | nil => exact BitVec.getLsbD_zero
  | append_singleton events ev ih => rw [feedAll_concat, feed_high _ _ high, ih]

/-- The order-independent fields depend on the set of events alone. -/
theorem feedAll_congr {events events' : List BootBusEvent}
    (same : ∀ ev, ev ∈ events' ↔ ev ∈ events) :
    let s := reset.feedAll events
    let s' := reset.feedAll events'
    s'.phaseFlags = s.phaseFlags ∧ s'.earlyPpiWrites = s.earlyPpiWrites ∧
      s'.basicWorkareaInit = s.basicWorkareaInit ∧ s'.lastConfirmed = s.lastConfirmed ∧
      s'.firstMissing = s.firstMissing := by
  intro s s'
  have flags : s'.phaseFlags = s.phaseFlags := by
    apply BitVec.eq_of_getLsbD_eq
    intro k _
    by_cases inside : k < BootPhase.count
    · obtain ⟨p, rfl⟩ := BootPhase.exists_index inside
      have bit := observed_iff events' p
      rw [show (∃ ev ∈ events', ev.Triggers p) ↔ ∃ ev ∈ events, ev.Triggers p by simp [same],
        ← observed_iff events p] at bit
      rw [observed, observed, bitSet_eq_getLsbD, bitSet_eq_getLsbD] at bit
      exact Bool.eq_iff_iff.mpr bit
    · rw [phaseFlags_high events' (Nat.le_of_not_lt inside),
        phaseFlags_high events (Nat.le_of_not_lt inside)]
  have derived := feedAll_derived events
  have derived' := feedAll_derived events'
  refine ⟨flags, ?_, ?_, ?_, ?_⟩
  · rw [Bool.eq_iff_iff, earlyPpiWrites_iff, earlyPpiWrites_iff]
    simp [same]
  · rw [Bool.eq_iff_iff, basicWorkareaInit_iff, basicWorkareaInit_iff]
    simp [same]
  · rw [derived'.1, derived.1, flags]
  · rw [derived'.2, derived.2, flags]

/-- The detector computes its specification on every list of events, and only
the header latch depends on their order or repetition. -/
theorem feedAll_specification (events : List BootBusEvent) :
    let s := feedAll reset events
    let seen := fun p : BootPhase => ∃ ev ∈ events, ev.Triggers p
    (∀ p, s.observed p = true ↔ seen p) ∧
    (s.earlyPpiWrites = true ↔ ∃ ev ∈ events, ev.PpiWrite) ∧
    (s.basicWorkareaInit = true ↔ ∃ ev ∈ events, ev.WorkareaWrite) ∧
    s.header4000 = lastHeader 0x4000#16 events ∧
    s.header4001 = lastHeader 0x4001#16 events ∧
    (s.headerRead = true ↔ HeaderSeen events) ∧
    s.LastConfirmed seen ∧ s.FirstMissing seen ∧
    ∀ events' : List BootBusEvent, (∀ ev, ev ∈ events' ↔ ev ∈ events) →
      let s' := feedAll reset events'
      s'.phaseFlags = s.phaseFlags ∧ s'.earlyPpiWrites = s.earlyPpiWrites ∧
        s'.basicWorkareaInit = s.basicWorkareaInit ∧ s'.lastConfirmed = s.lastConfirmed ∧
        s'.firstMissing = s.firstMissing := by
  have bits : ((reset.feedAll events).observed · = true) =
      fun p : BootPhase => ∃ ev ∈ events, ev.Triggers p :=
    funext fun p => propext (observed_iff events p)
  refine ⟨observed_iff events, earlyPpiWrites_iff events, basicWorkareaInit_iff events,
    header4000_eq events, header4001_eq events, headerRead_iff events, ?_, ?_,
    fun events' => feedAll_congr⟩
  · exact bits ▸ lastConfirmed_spec (feedAll_derived events)
  · exact bits ▸ firstMissing_spec (feedAll_derived events)

end Run

end BootDetect

end MsxPulse.Firmware
