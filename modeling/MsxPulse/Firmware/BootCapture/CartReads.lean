import Mathlib.Data.List.Nodup
import MsxPulse.Library.Machine
import MsxPulse.Firmware.Alog.Buffer

/-!
# Which cart reads the drains examine

`bd_alog_rd` is a cursor into a buffer that alog.c re-arms. `alog_reset` does not touch
the cursor and `boot_capture_reset` does not touch the buffer, so after either of them
alone the cursor says nothing about which words have been examined. Beside the two stands
what happened since the latest `alog_reset`.
-/

namespace MsxPulse.Firmware.BootCapture

open Library

/-- The log, the cursor of the drains and the detector they feed; and since the latest
`alog_reset`, the slots examined, the number of words at the latest drain and the events
fed. -/
structure CartReads where
  log : AlogBuffer
  rd : U16
  detect : BootDetect
  examined : List Nat
  seen : Nat
  fed : List BootBusEvent

inductive CartReadEvent where
  /-- The log's channel has a word to store. -/
  | cartRead (word : U32)
  | drain
  | captureReset
  | alogReset
  deriving DecidableEq

/-- The slots that the log loop of a drain goes through. -/
def slots (b : AlogBuffer) (rd : U16) : List Nat :=
  List.range' rd.toNat (b.captured.toNat - rd.toNat)

/-- The events of header reads among the words. -/
def headerEvents (raws : List U32) : List BootBusEvent := (raws.filter headerRead).map headerEvent

/-- What the log loop of a drain feeds. -/
def feeds (b : AlogBuffer) (rd : U16) : List BootBusEvent :=
  headerEvents ((slots b rd).map fun i => b.peek (BitVec.ofNat 16 i))

theorem drainAlog_feeds (b : AlogBuffer) (rd : U16) (s : BootDetect) :
    (drainAlog b rd s).1 = (feeds b rd).foldl BootDetect.feed s := by
  rw [feeds, headerEvents, ← foldl_feedCartRead, List.foldl_map]
  rfl

theorem feeds_eq_drop (b : AlogBuffer) (rd : U16) :
    feeds b rd = headerEvents (b.words.drop rd.toNat) := by
  unfold feeds slots AlogBuffer.words
  rw [← List.map_drop, List.range_eq_range', List.drop_range', Nat.zero_add, Nat.mul_one]

namespace CartReads

/-- After `alog_init` and `boot_capture_init`. -/
def start (b : AlogBuffer) (detect : BootDetect) : CartReads := ⟨b.init, 0, detect, [], 0, []⟩

/-- The log loop of `boot_capture_drain`. -/
def drain (s : CartReads) : CartReads :=
  let r := drainAlog s.log s.rd s.detect
  { s with
    rd := r.2
    detect := r.1
    examined := s.examined ++ slots s.log s.rd
    seen := s.log.captured.toNat
    fed := s.fed ++ feeds s.log s.rd }

/-- One step, each of the drains and resets in one. -/
def next (s : CartReads) : CartReadEvent → CartReads
  | .cartRead word => if s.log.HasRoom then { s with log := s.log.store word } else s
  | .drain => s.drain
  | .captureReset => { s with rd := 0 }
  | .alogReset => { s with log := s.log.reset, examined := [], seen := 0, fed := [] }

def machine : Machine CartReads CartReadEvent Empty := ⟨fun s event => (s.next event, [])⟩

/-- Since the latest `alog_reset` no slot was examined twice, every word that a drain found
has been examined, and the detector got each header read among these words once. -/
structure Once (s : CartReads) : Prop where
  nodup : s.examined.Nodup
  all : ∀ i < s.seen, i ∈ s.examined
  headers : s.fed = headerEvents (s.log.words.take s.seen)

/-- A drain that finds words begins where the latest drain since `alog_reset` ended. -/
def InStep (s : CartReads) : CartReadEvent → Prop
  | .drain => s.log.captured = 0 ∨ s.rd.toNat = s.seen
  | _ => True

instance (s : CartReads) (event : CartReadEvent) : Decidable (s.InStep event) := by
  cases event <;> unfold InStep <;> infer_instance

/-- What holds as long as the drains are in step. -/
structure Tracked (s : CartReads) : Prop where
  claimed : s.log.claimed = true
  positioned : s.log.Positioned
  found : s.seen ≤ s.log.captured.toNat
  examined : s.examined = List.range s.seen
  cursor : s.rd.toNat = s.seen ∨ s.seen = 0 ∨ s.rd = 0
  headers : s.fed = headerEvents (s.log.words.take s.seen)

variable {s : CartReads}

theorem Tracked.once (h : s.Tracked) : s.Once where
  nodup := h.examined ▸ List.nodup_range
  all _ below := h.examined ▸ List.mem_range.mpr below
  headers := h.headers

theorem start_tracked (b : AlogBuffer) (detect : BootDetect) : (start b detect).Tracked where
  claimed := rfl
  positioned := b.init_positioned
  found := Nat.zero_le _
  examined := rfl
  cursor := .inl rfl
  headers := rfl

theorem Tracked.cartRead (h : s.Tracked) (word : U32) : (s.next (.cartRead word)).Tracked := by
  show (if s.log.HasRoom then { s with log := s.log.store word } else s).Tracked
  split
  · have room : s.log.HasRoom := ‹_›
    have words := AlogBuffer.store_words h.positioned room word
    have length : s.log.words.length = s.log.captured.toNat := s.log.length_words
    have longer : (s.log.store word).captured.toNat = s.log.captured.toNat + 1 := by
      rw [← AlogBuffer.length_words, words, List.length_append, length]
      rfl
    refine ⟨h.claimed, h.positioned.store room word, ?_, h.examined, h.cursor, ?_⟩
    · have found := h.found
      show s.seen ≤ (s.log.store word).captured.toNat
      omega
    · show s.fed = headerEvents ((s.log.store word).words.take s.seen)
      rw [words, List.take_append_of_le_length (length ▸ h.found)]
      exact h.headers
  · exact h

theorem Tracked.captureReset (h : s.Tracked) : (s.next .captureReset).Tracked :=
  { h with cursor := .inr (.inr rfl) }

theorem Tracked.alogReset (h : s.Tracked) : (s.next .alogReset).Tracked where
  claimed := by
    show s.log.reset.claimed = true
    rw [AlogBuffer.reset, if_pos h.claimed]
    exact h.claimed
  positioned := h.positioned.reset
  found := Nat.zero_le _
  examined := rfl
  cursor := .inr (.inl rfl)
  headers := rfl

/-- A drain of an empty buffer. -/
theorem Tracked.drain_empty (h : s.Tracked) (empty : s.log.captured = 0) :
    (s.next .drain).Tracked := by
  have none : slots s.log s.rd = [] := by
    rw [slots, empty]
    exact congrArg (List.range' s.rd.toNat) (Nat.zero_sub s.rd.toNat)
  have unseen : s.seen = 0 := by
    have found := h.found
    rw [empty] at found
    exact Nat.le_zero.mp found
  refine ⟨h.claimed, h.positioned, Nat.le_refl _, ?_, .inr (.inl ?_), ?_⟩
  · show s.examined ++ slots s.log s.rd = List.range s.log.captured.toNat
    rw [none, h.examined, unseen, empty]
    rfl
  · show s.log.captured.toNat = 0
    rw [empty]
    rfl
  · show s.fed ++ feeds s.log s.rd = headerEvents (s.log.words.take s.log.captured.toNat)
    rw [feeds, none, h.headers, unseen, empty]
    rfl

/-- A drain that goes on where the latest one ended. -/
theorem Tracked.drain_on (h : s.Tracked) (follows : s.rd.toNat = s.seen) :
    (s.next .drain).Tracked := by
  have found := h.found
  have length : s.log.words.length = s.log.captured.toNat := s.log.length_words
  refine ⟨h.claimed, h.positioned, Nat.le_refl _, ?_, .inl ?_, ?_⟩
  · show s.examined ++ slots s.log s.rd = List.range s.log.captured.toNat
    rw [h.examined, slots, follows, List.range_eq_range', List.range_eq_range']
    have joined := List.range'_append_1 (s := 0) (m := s.seen) (n := s.log.captured.toNat - s.seen)
    rw [Nat.zero_add] at joined
    rw [joined, Nat.add_sub_cancel' found]
  · show (if s.rd < s.log.captured then s.log.captured else s.rd).toNat = s.log.captured.toNat
    split
    · rfl
    · have behind : ¬s.rd.toNat < s.log.captured.toNat := ‹¬_›
      omega
  · show s.fed ++ feeds s.log s.rd = headerEvents (s.log.words.take s.log.captured.toNat)
    rw [feeds_eq_drop, h.headers, follows, headerEvents, headerEvents, headerEvents,
      ← List.map_append, ← List.filter_append, List.take_append_drop, ← length, List.take_length]

theorem Tracked.next (h : s.Tracked) {event : CartReadEvent} (inStep : s.InStep event) :
    (s.next event).Tracked := by
  cases event with
  | cartRead word => exact h.cartRead word
  | drain => exact inStep.elim h.drain_empty h.drain_on
  | captureReset => exact h.captureReset
  | alogReset => exact h.alogReset

/-- A drain that is out of step repeats slot 0 or skips it. -/
theorem Tracked.inStep (h : s.Tracked) {event : CartReadEvent} (once : (s.next event).Once) :
    s.InStep event := by
  cases event with
  | drain =>
    by_contra out
    obtain ⟨nonempty, apart⟩ := not_or.mp out
    have words : 0 < s.log.captured.toNat := by
      refine Nat.pos_of_ne_zero fun zero => nonempty ?_
      exact BitVec.eq_of_toNat_eq zero
    have examined : (s.next .drain).examined = List.range s.seen ++ slots s.log s.rd :=
      congrArg (· ++ slots s.log s.rd) h.examined
    have first : 0 ∈ slots s.log s.rd ↔ s.rd.toNat = 0 := by
      rw [slots, List.mem_range'_1]
      omega
    have nodup := once.nodup
    have all := once.all 0 words
    rw [examined] at nodup all
    rcases Nat.eq_zero_or_pos s.seen with unseen | seen
    · rw [unseen, List.range_zero, List.nil_append, first] at all
      exact apart (all.trans unseen.symm)
    · have rewound : s.rd.toNat = 0 := by
        rcases h.cursor with same | none | zero
        · exact absurd same apart
        · omega
        · rw [zero]
          rfl
      exact List.disjoint_of_nodup_append nodup (List.mem_range.mpr seen) (first.mpr rewound)
  | _ => trivial

theorem tracked_along {inputs : List CartReadEvent} (h : s.Tracked)
    (along : machine.Along InStep s inputs) : (machine.final s inputs).Tracked :=
  machine.final_invariant InStep Tracked (fun _ _ tracked inStep => tracked.next inStep) h along

theorem along_of_once {inputs : List CartReadEvent} (h : s.Tracked)
    (once : ∀ before, before <+: inputs → (machine.final s before).Once) :
    machine.Along InStep s inputs := by
  induction inputs generalizing s with
  | nil => trivial
  | cons event inputs ih =>
    have inStep : s.InStep event :=
      h.inStep (once [event] ⟨inputs, rfl⟩)
    refine ⟨inStep, ih (h.next inStep) fun before isPrefix => ?_⟩
    exact once (event :: before) (List.cons_prefix_cons.mpr ⟨rfl, isPrefix⟩)

/-- Every captured cart read is examined exactly once at every point of a run if and only
if all drains that find words are in step with the latest `alog_reset`. -/
theorem once_iff_inStep (b : AlogBuffer) (detect : BootDetect) (inputs : List CartReadEvent) :
    (∀ before, before <+: inputs → (machine.final (start b detect) before).Once) ↔
      machine.Along InStep (start b detect) inputs := by
  constructor
  · exact along_of_once (start_tracked b detect)
  · rintro along before ⟨after, rfl⟩
    exact (tracked_along (start_tracked b detect) ((machine.along_append _ _ _ _).mp along).1).once

/-! ## What the detector has got -/

/-- Until the next `alog_reset` the detector gets what is added to the events fed. -/
theorem fed_step (s : CartReads) {event : CartReadEvent} (kept : event ≠ .alogReset) :
    ∃ more, (s.next event).fed = s.fed ++ more ∧
      (s.next event).detect = more.foldl BootDetect.feed s.detect := by
  cases event with
  | cartRead word =>
    refine ⟨[], ?_⟩
    by_cases room : s.log.HasRoom
    · rw [next, if_pos room]
      exact ⟨(List.append_nil _).symm, rfl⟩
    · rw [next, if_neg room]
      exact ⟨(List.append_nil _).symm, rfl⟩
  | drain => exact ⟨feeds s.log s.rd, rfl, drainAlog_feeds s.log s.rd s.detect⟩
  | captureReset => exact ⟨[], (List.append_nil _).symm, rfl⟩
  | alogReset => exact absurd rfl kept

theorem fed_run {inputs : List CartReadEvent} (kept : .alogReset ∉ inputs) :
    ∃ more, (machine.final s inputs).fed = s.fed ++ more ∧
      (machine.final s inputs).detect = more.foldl BootDetect.feed s.detect := by
  induction inputs generalizing s with
  | nil => exact ⟨[], (List.append_nil _).symm, rfl⟩
  | cons event inputs ih =>
    obtain ⟨other, later⟩ := List.ne_and_not_mem_of_not_mem_cons kept
    obtain ⟨first, fed, detect⟩ := fed_step s other.symm
    obtain ⟨rest, fed', detect'⟩ := ih (s := s.next event) later
    rw [fed, List.append_assoc] at fed'
    rw [detect, ← List.foldl_append] at detect'
    exact ⟨first ++ rest, fed', detect'⟩

/-- From the start or an `alog_reset` to the next one, drains in step give the detector the
header reads among the words that they found, each once and in order, and nothing else. -/
theorem detect_of_inStep {inputs : List CartReadEvent} (h : s.Tracked) (fresh : s.fed = [])
    (kept : .alogReset ∉ inputs) (along : machine.Along InStep s inputs) :
    (machine.final s inputs).detect =
      (headerEvents ((machine.final s inputs).log.words.take (machine.final s inputs).seen)).foldl
        BootDetect.feed s.detect := by
  obtain ⟨more, fed, detect⟩ := fed_run kept
  rw [fresh, List.nil_append] at fed
  rw [detect, ← fed, (tracked_along h along).headers]

/-- The next pass of a round calls `boot_capture_reset` and leaves the log as it is, so
the next drain starts over: the header byte is fed twice. -/
theorem next_pass_repeats :
    ¬∀ (b : AlogBuffer) (detect : BootDetect) (inputs : List CartReadEvent),
      (machine.final (start b detect) inputs).Once := by
  intro once
  have nodup := (once (.initial ⟨0x20000000, by decide⟩) BootDetect.reset
    [.cartRead 0x00414000, .drain, .captureReset, .drain]).nodup
  revert nodup
  decide +kernel

end CartReads

end MsxPulse.Firmware.BootCapture
