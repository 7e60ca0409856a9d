import MsxPulse.Firmware.Captures.Isolation
import MsxPulse.Firmware.Captures.Wired

/-!
# What a frozen result rests on

At the end of a round the detector has been fed the decoded words of the first
memory and I/O cycles of every pass and the header reads of the log, and the
analyzer the first reads of every pass; nothing else, nothing twice, and up to the
last drain of each ring at most a FIFO of cycles less.
-/

namespace MsxPulse.Firmware

open Library Library.Pio BootCapture

/-- A result says of these bus events and reads what the specifications of the
detector and the analyzer say of them. -/
structure BootDiagResult.Reports (r : BootDiagResult) (seen : BootBusEvent → Prop)
    (reads : List BusRead) : Prop where
  count : r.nReads.toNat = reads.length
  phases : ∀ p : BootPhase, bitSet r.phaseFlags p.index = true ↔ ∃ ev, seen ev ∧ ev.Triggers p
  ppi : r.earlyPpiWrites = true ↔ ∃ ev, seen ev ∧ ev.PpiWrite
  workarea : r.basicWorkareaInit = true ↔ ∃ ev, seen ev ∧ ev.WorkareaWrite
  dataHi : ∀ k < 8, r.stuckDataHi.getLsbD k = true ↔
    BusIntegrity.DataStuckHi reads BootDiag.minReads k
  dataLo : ∀ k < 8, r.stuckDataLo.getLsbD k = true ↔
    BusIntegrity.DataStuckLo reads BootDiag.minReads k
  addr : ∀ k < 16, r.stuckAddrMask.getLsbD k = true ↔
    BusIntegrity.AddrStuck reads BootDiag.minReads BootDiag.minAddrBits k
  undriven : r.busUndriven = true ↔ BusIntegrity.Undriven reads BootDiag.minReads
  checked : ∀ k, r.cpChecked.getLsbD k = true ↔ BusIntegrity.CheckpointRead reads k
  failed : ∀ k, r.cpFailed.getLsbD k = true ↔ BusIntegrity.CheckpointWrong reads k

/-- A result frozen from a detector and an analyzer that were fed these. -/
theorem BootDiag.freezeResult_reports (d : BootDiag) {events : List BootBusEvent}
    {seen : BootBusEvent → Prop} (all : ∀ ev, ev ∈ events ↔ seen ev) {reads : List BusRead}
    (bi : d.bi = BusIntegrity.reset.feedAll reads) (short : reads.length < 2 ^ 31) :
    (d.freezeResult (BootDetect.reset.feedAll events)).Reports seen reads where
  count := by
    show d.bi.nReads.toNat = _
    rw [bi]
    exact BusIntegrity.nReads_toNat reads short
  phases := fun p => by
    simp only [← all]
    exact BootDetect.observed_iff events p
  ppi := by
    simp only [← all]
    exact BootDetect.earlyPpiWrites_iff events
  workarea := by
    simp only [← all]
    exact BootDetect.basicWorkareaInit_iff events
  dataHi := fun k inside => by
    show (d.bi.stuckDataHi BootDiag.minReads).getLsbD k = true ↔ _
    rw [bi]
    exact BusIntegrity.stuckDataHi_iff reads _ short (by decide) inside
  dataLo := fun k inside => by
    show (d.bi.stuckDataLo BootDiag.minReads).getLsbD k = true ↔ _
    rw [bi]
    exact BusIntegrity.stuckDataLo_iff reads _ short (by decide) inside
  addr := fun k inside => by
    show (d.bi.stuckAddr BootDiag.minReads BootDiag.minAddrBits).getLsbD k = true ↔ _
    rw [bi]
    exact BusIntegrity.stuckAddr_iff reads _ _ short (by decide) inside
  undriven := by
    show d.bi.busUndriven BootDiag.minReads = true ↔ _
    rw [bi]
    exact BusIntegrity.busUndriven_iff reads _ short
  checked := fun k => by
    show d.bi.cpChecked.getLsbD k = true ↔ _
    rw [bi]
    exact BusIntegrity.cpChecked_iff reads k
  failed := fun k => by
    show d.bi.cpFailed.getLsbD k = true ↔ _
    rw [bi]
    exact BusIntegrity.cpFailed_iff reads k

namespace Wired

/-- The bus events behind what the drains have passed on. -/
def Evidence (s : Wired) (ev : BootBusEvent) : Prop :=
  (∃ w ∈ s.lanes.mem.fed, decodeMem w = some ev) ∨
    (∃ w ∈ s.lanes.io.fed, decodeIo w = some ev) ∨
    ∃ w ∈ s.examined, headerRead w = true ∧ headerEvent w = ev

/-- The reads that the analyzer has been fed. -/
def reads (s : Wired) : List BusRead := s.lanes.txn.fed.map readOf

variable (pins : Nat → U64) (begun : Nat)

/-- Each ring follows its capture. -/
structure Rings (s : Wired) : Prop where
  mem : s.lanes.mem.Tracked bdMemCapture pins begun s.now s.caps.mem s.caps.core1.memPc
  io : s.lanes.io.Tracked bdIoCapture pins begun s.now s.caps.io s.caps.core1.ioPc
  txn : s.lanes.txn.Tracked txnReadCapture pins begun s.now s.caps.txn s.caps.core1.txnPc

/-- The accumulators hold what was passed on. -/
structure Fits (s : Wired) : Prop where
  detect : ∃ events, s.caps.detect = BootDetect.reset.feedAll events ∧
    ∀ ev, ev ∈ events ↔ s.Evidence ev
  bi : s.caps.diag.bi = BusIntegrity.reset.feedAll s.reads
  examined : ∀ w ∈ s.examined, w ∈ s.caps.alog.words

/-- A round that has begun: no request is pending, and it ends with a result frozen
from the accumulators as they are. -/
structure Underway (s : Wired) : Prop where
  sound : s.caps.Sound
  quiet : s.caps.diag.request = false
  armed : ¬ s.caps.AtRearm
  begun : s.caps.diag.phase ≠ .idle
  frozen : s.caps.diag.phase = .done →
    ∃ d : BootDiag, d.bi = s.caps.diag.bi ∧ s.caps.diag.result = d.freezeResult s.caps.detect

section Steps

variable {pins begun} {s : Wired}

/-- The rings at a known position of core 1. -/
theorem Rings.at_ (r : s.Rings pins begun) {core1 : Core1} (here : s.caps.core1 = core1) :
    s.lanes.mem.Tracked bdMemCapture pins begun s.now s.caps.mem core1.memPc ∧
      s.lanes.io.Tracked bdIoCapture pins begun s.now s.caps.io core1.ioPc ∧
      s.lanes.txn.Tracked txnReadCapture pins begun s.now s.caps.txn core1.txnPc := by
  rw [← here]
  exact ⟨r.mem, r.io, r.txn⟩

/-- The detector is given what a word decodes to. -/
theorem mem_feedDecoded (dec : U32 → Option BootBusEvent) (events : List BootBusEvent) (raw : U32) :
    ∃ events', feedDecoded dec (BootDetect.reset.feedAll events) raw =
        BootDetect.reset.feedAll events' ∧
      ∀ ev, ev ∈ events' ↔ ev ∈ events ∨ dec raw = some ev := by
  unfold feedDecoded
  cases decoded : dec raw with
  | none => exact ⟨events, rfl, by simp⟩
  | some ev =>
    refine ⟨events ++ [ev], (BootDetect.feedAll_concat _ _ _).symm, ?_⟩
    intro ev'
    rw [List.mem_append, List.mem_singleton, Option.some.injEq, @eq_comm _ ev ev']

theorem Fits.feedMem (f : s.Fits) (word : U32) (core1 : Core1) :
    Fits { s with
      lanes := { s.lanes with mem := s.lanes.mem.feed word }
      caps := { s.caps with
        detect := feedDecoded decodeMem s.caps.detect word, core1 := core1 } } where
  detect := by
    obtain ⟨events, detect, all⟩ := f.detect
    obtain ⟨events', fed, all'⟩ := mem_feedDecoded decodeMem events word
    refine ⟨events', ?_, ?_⟩
    · show feedDecoded decodeMem s.caps.detect word = _
      rw [detect, fed]
    · intro ev
      rw [all', all]
      unfold Evidence
      simp only [Lane.fed_feed, List.mem_append, List.mem_singleton, or_and_right, exists_or,
        exists_eq_left]
      exact or_right_comm
  bi := f.bi
  examined := f.examined

theorem Fits.feedIo (f : s.Fits) (word : U32) (core1 : Core1) :
    Fits { s with
      lanes := { s.lanes with io := s.lanes.io.feed word }
      caps := { s.caps with
        detect := feedDecoded decodeIo s.caps.detect word, core1 := core1 } } where
  detect := by
    obtain ⟨events, detect, all⟩ := f.detect
    obtain ⟨events', fed, all'⟩ := mem_feedDecoded decodeIo events word
    refine ⟨events', ?_, ?_⟩
    · show feedDecoded decodeIo s.caps.detect word = _
      rw [detect, fed]
    · intro ev
      rw [all', all]
      unfold Evidence
      simp only [Lane.fed_feed, List.mem_append, List.mem_singleton, or_and_right, exists_or,
        exists_eq_left]
      rw [or_assoc, or_right_comm]
  bi := f.bi
  examined := f.examined

theorem Fits.feedTxn (f : s.Fits) (word : U32) (core1 : Core1) :
    Fits { s with
      lanes := { s.lanes with txn := s.lanes.txn.feed word }
      caps := { s.caps with
        diag := { s.caps.diag with bi := TxnCapture.feedRaw s.caps.diag.bi word }
        core1 := core1 } } where
  detect := f.detect
  bi := by
    show _ = BusIntegrity.reset.feedAll ((s.lanes.txn.feed word).fed.map readOf)
    rw [Lane.fed_feed, List.map_append, BusIntegrity.feedAll_append]
    show TxnCapture.feedRaw s.caps.diag.bi word =
      (BusIntegrity.reset.feedAll s.reads).feedAll [readOf word]
    rw [← f.bi]
    rfl
  examined := f.examined

/-- The log loop examines what the log shows from the cursor on. -/
theorem Fits.examine (f : s.Fits) (lanes : Lanes) (mem : lanes.mem = s.lanes.mem)
    (io : lanes.io = s.lanes.io) (txn : lanes.txn.fed = s.lanes.txn.fed) (caps : Captures)
    (diag : caps.diag = s.caps.diag) (alog : caps.alog = s.caps.alog)
    (detect : caps.detect = (drainAlog s.caps.alog s.caps.alogRd s.caps.detect).1) :
    Fits { s with
      lanes := lanes
      caps := caps
      examined := s.examined ++ s.caps.alog.words.drop s.caps.alogRd.toNat } where
  detect := by
    obtain ⟨events, before, all⟩ := f.detect
    refine ⟨events ++ ((s.caps.alog.words.drop s.caps.alogRd.toNat).filter headerRead).map
      headerEvent, ?_, ?_⟩
    · show caps.detect = _
      rw [detect, drainAlog_fst, foldl_feedCartRead, before, BootDetect.feedAll,
        BootDetect.feedAll, List.foldl_append]
    · intro ev
      rw [List.mem_append, all]
      unfold Evidence
      simp only [mem, io, List.mem_append, or_and_right, exists_or, List.mem_map,
        List.mem_filter, and_assoc, or_assoc]
  bi := by
    show caps.diag.bi = _
    rw [diag, f.bi]
    simp only [reads, txn]
  examined := by
    intro w member
    show w ∈ caps.alog.words
    rw [alog]
    rcases List.mem_append.mp member with before | now
    · exact f.examined w before
    · exact List.mem_of_mem_drop now

/-- What a step leaves alone, it keeps. -/
theorem Fits.keep (f : s.Fits) {s' : Wired} (mem : s'.lanes.mem.fed = s.lanes.mem.fed)
    (io : s'.lanes.io.fed = s.lanes.io.fed) (txn : s'.lanes.txn.fed = s.lanes.txn.fed)
    (examined : s'.examined = s.examined) (detect : s'.caps.detect = s.caps.detect)
    (bi : s'.caps.diag.bi = s.caps.diag.bi)
    (alog : ∀ w ∈ s.caps.alog.words, w ∈ s'.caps.alog.words) : s'.Fits where
  detect := by
    obtain ⟨events, before, all⟩ := f.detect
    refine ⟨events, detect.trans before, ?_⟩
    intro ev
    rw [all]
    simp only [Evidence, mem, io, examined]
  bi := by
    rw [bi, f.bi]
    simp only [reads, txn]
  examined := by
    intro w member
    rw [examined] at member
    exact alog w (f.examined w member)

/-! ## Core 1 -/

/-- The rings and the accumulators together. -/
structure Follows (pins : Nat → U64) (begun : Nat) (s : Wired) : Prop where
  rings : s.Rings pins begun
  fits : s.Fits

theorem Follows.head (h : s.Follows pins begun) (here : s.caps.core1 = .head) (inTime : s.InTime)
    (nowUs : U64) : (s.core1Step nowUs).Follows pins begun := by
  obtain ⟨mem, io, txn⟩ := h.rings.at_ here
  simp only [InTime, here] at inTime
  simp only [Wired.core1Step, watch, examines, Captures.core1Step, here]
  unfold Captures.beginMem
  by_cases active : s.caps.diag.captureActive = true
  · simp only [if_pos active]
    refine ⟨⟨mem.beginDrain (inTime active), io, txn⟩, ?_⟩
    exact h.fits.keep (Lane.fed_beginDrain _) rfl rfl (List.append_nil _) rfl rfl fun _ => id
  · simp only [if_neg active]
    exact ⟨⟨h.rings.mem, h.rings.io, h.rings.txn⟩,
      h.fits.keep rfl rfl rfl (List.append_nil _) rfl rfl fun _ => id⟩

theorem Follows.memTurn (h : s.Follows pins begun) {total rd : U32}
    (here : s.caps.core1 = .mem total rd) (inTime : s.InTime) (nowUs : U64) :
    (s.core1Step nowUs).Follows pins begun := by
  obtain ⟨mem, io, txn⟩ := h.rings.at_ here
  simp only [InTime, here] at inTime
  simp only [Wired.core1Step, watch, examines, Captures.core1Step, here]
  unfold Captures.turnMem
  by_cases done : rd = total
  · simp only [if_pos done] at inTime ⊢
    refine ⟨⟨mem.endDrain done, io.beginDrain inTime, txn⟩, ?_⟩
    exact h.fits.keep rfl (Lane.fed_beginDrain _) rfl (List.append_nil _) rfl rfl fun _ => id
  · simp only [if_neg done] at inTime ⊢
    refine ⟨⟨mem.turn done inTime, io, txn⟩, ?_⟩
    have fed := h.fits.feedMem (s.caps.mem.dma.read rd) (.mem total (rd + 1#32))
    exact fed.keep rfl rfl rfl (List.append_nil _) rfl rfl fun _ => id

theorem Follows.ioTurn (h : s.Follows pins begun) {total rd : U32}
    (here : s.caps.core1 = .io total rd) (inTime : s.InTime) (nowUs : U64) :
    (s.core1Step nowUs).Follows pins begun := by
  obtain ⟨mem, io, txn⟩ := h.rings.at_ here
  simp only [InTime, here] at inTime
  simp only [Wired.core1Step, watch, examines, Captures.core1Step, here]
  unfold Captures.turnIo
  by_cases done : rd = total
  · simp only [if_pos done]
    refine ⟨⟨mem, io.endDrain done, txn⟩, ?_⟩
    exact h.fits.keep rfl rfl rfl (List.append_nil _) rfl rfl fun _ => id
  · simp only [if_neg done]
    refine ⟨⟨mem, io.turn done (inTime done), txn⟩, ?_⟩
    have fed := h.fits.feedIo (s.caps.io.dma.read rd) (.io total (rd + 1#32))
    exact fed.keep rfl rfl rfl (List.append_nil _) rfl rfl fun _ => id

theorem Follows.alogTurn (h : s.Follows pins begun) (here : s.caps.core1 = .alog) (inTime : s.InTime)
    (nowUs : U64) : (s.core1Step nowUs).Follows pins begun := by
  obtain ⟨mem, io, txn⟩ := h.rings.at_ here
  simp only [InTime, here] at inTime
  simp only [Wired.core1Step, watch, examines, Captures.core1Step, here]
  unfold Captures.turnAlog
  by_cases claimed : s.caps.txn.claimed = true
  · simp only [if_pos claimed]
    refine ⟨⟨mem, io, txn.beginDrain (inTime claimed)⟩, ?_⟩
    exact h.fits.examine { s.lanes with txn := s.lanes.txn.beginDrain } rfl rfl
      (Lane.fed_beginDrain _) _ rfl rfl rfl
  · simp only [if_neg claimed]
    refine ⟨⟨mem, io, txn⟩, ?_⟩
    exact h.fits.examine s.lanes rfl rfl rfl _ rfl rfl rfl

theorem Follows.txnTurn (h : s.Follows pins begun) {total rd : U32}
    (here : s.caps.core1 = .txn total rd) (inTime : s.InTime) (nowUs : U64) :
    (s.core1Step nowUs).Follows pins begun := by
  obtain ⟨mem, io, txn⟩ := h.rings.at_ here
  simp only [InTime, here] at inTime
  simp only [Wired.core1Step, watch, examines, Captures.core1Step, here]
  unfold Captures.turnTxn
  by_cases done : rd = total
  · simp only [if_pos done]
    refine ⟨⟨mem, io, txn.endDrain done⟩, ?_⟩
    exact h.fits.keep rfl rfl rfl (List.append_nil _) rfl rfl fun _ => id
  · simp only [if_neg done]
    refine ⟨⟨mem, io, txn.turn done (inTime done)⟩, ?_⟩
    have fed := h.fits.feedTxn (s.caps.txn.dma.read rd) (.txn total (rd + 1#32))
    exact fed.keep rfl rfl rfl (List.append_nil _) rfl rfl fun _ => id

theorem Follows.core1Step (h : s.Follows pins begun) (inTime : s.InTime) (nowUs : U64) :
    (s.core1Step nowUs).Follows pins begun := by
  cases here : s.caps.core1 with
  | head => exact h.head here inTime nowUs
  | mem total rd => exact h.memTurn here inTime nowUs
  | io total rd => exact h.ioTurn here inTime nowUs
  | alog => exact h.alogTurn here inTime nowUs
  | txn total rd => exact h.txnTurn here inTime nowUs

/-! ## Core 0 -/

theorem Follows.tick (hw : CaptureHandles) (u : s.Underway) (h : s.Follows pins begun) (nowMs : U32)
    (snap : BusProbeSnapshot) : (s.tick hw nowMs snap).Follows pins begun := by
  have outcome := BootDiag.tick_outcome s.caps.diag snap s.caps.detect nowMs
  have later : decide s.caps.AtRearm = false := decide_eq_false u.armed
  unfold Wired.tick Captures.tick
  rw [later, if_neg u.armed]
  generalize s.caps.diag.tick snap s.caps.detect nowMs = next at outcome
  cases outcome with
  | wait => exact h
  | beginRound ready requested => exact absurd (u.quiet.symm.trans requested) (by decide)
  | beginPass armed =>
    have active := u.sound.running (by simp [armed]) (by simp [armed])
    obtain ⟨claimed, -, claimed'⟩ := u.sound.claimed active.2.1
    obtain ⟨mem, io, txn⟩ := h.rings.at_ (u.sound.away (by simp [armed]) (by simp [armed]))
    dsimp only
    rw [Captures.perform_rearm _ claimed claimed']
    have parked : s.caps.core1 = .head := u.sound.away (by simp [armed]) (by simp [armed])
    obtain ⟨memArms, ioArms⟩ := bootCapture_reset_smOps hw.boot hw.bootClaimed
    refine ⟨⟨?_, ?_, ?_⟩, ?_⟩
    · show (s.lanes.mem.rearm hw.boot.memOff _ s.now).Tracked _ pins begun s.now s.caps.mem.reset
        s.caps.core1.memPc
      rw [parked]
      exact mem.rearm memArms
    · show (s.lanes.io.rearm hw.boot.ioOff _ s.now).Tracked _ pins begun s.now s.caps.io.reset
        s.caps.core1.ioPc
      rw [parked]
      exact io.rearm ioArms
    · show (s.lanes.txn.rearm hw.txn.off _ s.now).Tracked _ pins begun s.now s.caps.txn.reset
        s.caps.core1.txnPc
      rw [parked]
      exact txn.rearm (txnCapture_reset_smOps hw.txn hw.txnClaimed)
    · exact h.fits.keep (Lane.fed_rearm _ _ _ _) (Lane.fed_rearm _ _ _ _)
        (Lane.fed_rearm _ _ _ _) rfl rfl rfl fun _ => id
  | endWindow capturing late =>
    have active := u.sound.running (by simp [capturing]) (by simp [capturing])
    obtain ⟨-, -, claimed⟩ := u.sound.claimed active.2.1
    dsimp only
    rw [Captures.perform_stop _ claimed]
    obtain ⟨memStops, ioStops⟩ := bootCapture_stop_smOps hw.boot
    have txnStops := txnCapture_stop_smOps hw.txn hw.txnClaimed
    exact ⟨⟨h.rings.mem.stop memStops, h.rings.io.stop ioStops, h.rings.txn.stop txnStops⟩,
      h.fits.keep (Lane.fed_stop _ _ _) (Lane.fed_stop _ _ _) (Lane.fed_stop _ _ _) rfl rfl rfl
        fun _ => id⟩
  | nextPass => exact ⟨⟨h.rings.mem, h.rings.io, h.rings.txn⟩,
      h.fits.keep rfl rfl rfl rfl rfl rfl fun _ => id⟩
  | finish => exact ⟨⟨h.rings.mem, h.rings.io, h.rings.txn⟩,
      h.fits.keep rfl rfl rfl rfl rfl rfl fun _ => id⟩

/-! ## The round -/

theorem Underway.keep (u : s.Underway) {s' : Wired} (sound : s'.caps.Sound)
    (diag : s'.caps.diag = s.caps.diag) (detect : s'.caps.detect = s.caps.detect) :
    s'.Underway where
  sound := sound
  quiet := by rw [diag]; exact u.quiet
  armed := by
    unfold Captures.AtRearm
    rw [diag]
    exact u.armed
  begun := by rw [diag]; exact u.begun
  frozen := by rw [diag, detect]; exact u.frozen

/-- In the middle of a pass. -/
theorem underway_of_phase {s' : Wired} (sound : s'.caps.Sound)
    (quiet : s'.caps.diag.request = false)
    (phase : s'.caps.diag.phase = .capturing ∨ s'.caps.diag.phase = .settle) : s'.Underway where
  sound := sound
  quiet := quiet
  armed := fun rearm => absurd phase (by simp [rearm.1])
  begun := fun idle => absurd phase (by simp [idle])
  frozen := fun done => absurd phase (by simp [done])

theorem Underway.core1Step (u : s.Underway) (nowUs : U64)
    (sound : (s.caps.core1Step nowUs).Sound) : (s.core1Step nowUs).Underway := by
  by_cases busy : s.caps.diag.phase = .capturing ∨ s.caps.diag.phase = .settle
  · have same := Captures.core1Step_diag s.caps nowUs
    have phase : (s.caps.core1Step nowUs).diag.phase = s.caps.diag.phase := by rw [same]
    have request : (s.caps.core1Step nowUs).diag.request = s.caps.diag.request := by rw [same]
    exact underway_of_phase sound (request.trans u.quiet)
      (busy.imp phase.trans phase.trans)
  · rw [not_or] at busy
    -- no drain is under way and none begins
    have still : s.caps.core1Step nowUs = s.caps := by
      simp [Captures.core1Step, u.sound.away busy.1 busy.2, Captures.beginMem,
        u.sound.parked busy.1]
    exact u.keep sound (congrArg Captures.diag still) (congrArg Captures.detect still)

theorem Underway.tick (u : s.Underway) (hw : CaptureHandles) (nowMs : U32)
    (snap : BusProbeSnapshot) (sound : (s.caps.tick nowMs snap).Sound) :
    (s.tick hw nowMs snap).Underway := by
  have outcome := BootDiag.tick_outcome s.caps.diag snap s.caps.detect nowMs
  unfold Wired.tick
  unfold Captures.tick at sound ⊢
  generalize s.caps.diag.tick snap s.caps.detect nowMs = next at outcome sound
  cases outcome with
  | wait => exact u.keep sound rfl rfl
  | beginRound ready requested => exact absurd (u.quiet.symm.trans requested) (by decide)
  | beginPass armed =>
    have active := u.sound.running (by simp [armed]) (by simp [armed])
    obtain ⟨claimed, -, claimed'⟩ := u.sound.claimed active.2.1
    dsimp only at sound ⊢
    rw [Captures.perform_rearm _ claimed claimed'] at sound ⊢
    exact underway_of_phase sound u.quiet (.inl rfl)
  | endWindow capturing late =>
    have active := u.sound.running (by simp [capturing]) (by simp [capturing])
    obtain ⟨-, -, claimed⟩ := u.sound.claimed active.2.1
    dsimp only at sound ⊢
    rw [Captures.perform_stop _ claimed] at sound ⊢
    exact underway_of_phase sound u.quiet (.inr rfl)
  | nextPass settled late incomplete remaining =>
    have active := u.sound.running (by simp [settled]) (by simp [settled])
    refine ⟨sound, u.quiet, ?_, fun idle => BootDiagPhase.noConfusion idle,
      fun done => BootDiagPhase.noConfusion done⟩
    intro rearm
    have zero : (s.caps.diag.pass + 1#8).toNat = 0 := congrArg BitVec.toNat rearm.2
    have below := active.2.2
    rw [BitVec.toNat_add] at zero
    simp at zero
    omega
  | finish settled late stops =>
    exact ⟨sound, u.quiet, fun rearm => BootDiagPhase.noConfusion rearm.1,
      fun idle => BootDiagPhase.noConfusion idle, fun _ => ⟨_, rfl, rfl⟩⟩

theorem Underway.step {hw : CaptureHandles} {e : WiredEvent} (u : s.Underway)
    (allowed : s.Allowed e) : ((machine pins hw).step s e).1.Underway := by
  have sound : ((machine pins hw).step s e).1.caps.Sound := sound_step u.sound allowed
  cases e with
  | clock => exact u.keep sound rfl rfl
  | memDma =>
    have projects := step_caps pins hw s .memDma
    refine u.keep sound ?_ ?_ <;>
    · rw [projects]
      unfold projected
      cases s.lanes.mem.sm.rx <;> rfl
  | ioDma =>
    have projects := step_caps pins hw s .ioDma
    refine u.keep sound ?_ ?_ <;>
    · rw [projects]
      unfold projected
      cases s.lanes.io.sm.rx <;> rfl
  | txnDma =>
    have projects := step_caps pins hw s .txnDma
    refine u.keep sound ?_ ?_ <;>
    · rw [projects]
      unfold projected
      cases s.lanes.txn.sm.rx <;> rfl
  | strayDma =>
    have projects := step_caps pins hw s .strayDma
    exact u.keep sound (congrArg Captures.diag projects) (congrArg Captures.detect projects)
  | cartRead word => exact u.keep sound rfl rfl
  | tick nowMs snap => exact u.tick hw nowMs snap sound
  | core1 nowUs => exact u.core1Step nowUs sound

theorem bdMemCapture_watcher : bdMemCapture.Watcher := gatedCapture_watcher rawBitMreq
theorem bdIoCapture_watcher : bdIoCapture.Watcher := gatedCapture_watcher rawBitIorq

/-- A clock, or a channel that moves a word, changes no accumulator. -/
theorem Follows.step {hw : CaptureHandles} {e : WiredEvent} (u : s.Underway)
    (alone : s.stray = false) (h : s.Follows pins begun) (allowed : s.Allowed e) :
    ((machine pins hw).step s e).1.Follows pins begun := by
  cases e with
  | clock =>
    obtain ⟨mem, io, txn⟩ := allowed
    exact ⟨⟨h.rings.mem.clock bdMemCapture_watcher mem, h.rings.io.clock bdIoCapture_watcher io,
        h.rings.txn.clock txnReadCapture_watcher txn⟩,
      h.fits.keep (Lane.fed_clock _ _ _) (Lane.fed_clock _ _ _) (Lane.fed_clock _ _ _)
        rfl rfl rfl fun _ => id⟩
  | memDma =>
    show s.memDma.Follows pins begun
    unfold memDma
    split
    · rename_i word rest rx
      exact ⟨⟨h.rings.mem.store rx, h.rings.io, h.rings.txn⟩,
        h.fits.keep (Lane.fed_store _ _ _) rfl rfl rfl rfl rfl fun _ => id⟩
    · exact h
  | ioDma =>
    show s.ioDma.Follows pins begun
    unfold ioDma
    split
    · rename_i word rest rx
      exact ⟨⟨h.rings.mem, h.rings.io.store rx, h.rings.txn⟩,
        h.fits.keep rfl (Lane.fed_store _ _ _) rfl rfl rfl rfl fun _ => id⟩
    · exact h
  | txnDma =>
    show s.txnDma.Follows pins begun
    unfold txnDma
    split
    · rename_i word rest rx
      exact ⟨⟨h.rings.mem, h.rings.io, h.rings.txn.store rx⟩,
        h.fits.keep rfl rfl (Lane.fed_store _ _ _) rfl rfl rfl fun _ => id⟩
    · exact h
  | strayDma => exact absurd (allowed.symm.trans alone) (by decide)
  | cartRead word =>
    refine ⟨⟨h.rings.mem, h.rings.io, h.rings.txn⟩, h.fits.keep rfl rfl rfl rfl rfl rfl ?_⟩
    intro w member
    show w ∈ (s.caps.alog.store word).words
    rw [AlogBuffer.store_words u.sound.log allowed word]
    exact List.mem_append_left _ member
  | tick nowMs snap => exact h.tick hw u nowMs snap
  | core1 nowUs => exact h.core1Step allowed nowUs

/-- The first re-arm begins the records. -/
theorem rearmed (hw : CaptureHandles) (sound : s.caps.Sound) (rearm : s.caps.AtRearm)
    (nowMs : U32) (snap : BusProbeSnapshot) :
    (s.tick hw nowMs snap).Underway ∧ (s.tick hw nowMs snap).Follows pins s.now := by
  have armed := rearm.1
  have next : (s.caps.tick nowMs snap).Sound :=
    sound.tick fun settle => absurd (armed.symm.trans settle) (by decide)
  have active := sound.running (by simp [armed]) (by simp [armed])
  obtain ⟨claimed, -, claimed'⟩ := sound.claimed active.2.1
  obtain ⟨bi, -, detect⟩ := sound.fresh rearm
  have parked : s.caps.core1 = .head := sound.away (by simp [armed]) (by simp [armed])
  have ticked : s.caps.diag.tick snap s.caps.detect nowMs =
      s.caps.diag.tickPassBegin nowMs := by
    unfold BootDiag.tick
    rw [armed]
  have first : decide s.caps.AtRearm = true := decide_eq_true rearm
  unfold Captures.tick at next
  unfold Wired.tick Captures.tick
  rw [ticked] at next ⊢
  rw [first, if_pos rearm]
  unfold BootDiag.tickPassBegin at next ⊢
  dsimp only at next ⊢
  rw [Captures.perform_rearm _ claimed claimed'] at next ⊢
  obtain ⟨memArms, ioArms⟩ := bootCapture_reset_smOps hw.boot hw.bootClaimed
  refine ⟨underway_of_phase next active.1 (.inl rfl), ⟨?_, ?_, ?_⟩, ?_⟩
  · show (s.lanes.mem.arm hw.boot.memOff _ s.now).Tracked _ pins s.now s.now s.caps.mem.reset
      s.caps.core1.memPc
    rw [parked]
    exact Lane.arm_tracked memArms _ _
  · show (s.lanes.io.arm hw.boot.ioOff _ s.now).Tracked _ pins s.now s.now s.caps.io.reset
      s.caps.core1.ioPc
    rw [parked]
    exact Lane.arm_tracked ioArms _ _
  · show (s.lanes.txn.arm hw.txn.off _ s.now).Tracked _ pins s.now s.now s.caps.txn.reset
      s.caps.core1.txnPc
    rw [parked]
    exact Lane.arm_tracked (txnCapture_reset_smOps hw.txn hw.txnClaimed) _ _
  · refine ⟨⟨[], detect, ?_⟩, ?_, by simp⟩
    · intro ev
      simp [Evidence, perform]
    · show s.caps.diag.bi = _
      rw [bi]
      simp [reads, perform]

theorem follows_of_run {hw : CaptureHandles} (underway : s.Underway) (alone : s.stray = false)
    (follows : s.Follows pins begun) {events : List WiredEvent}
    (allowed : (machine pins hw).Along Allowed s events) :
    ((machine pins hw).final s events).Underway ∧
      ((machine pins hw).final s events).Follows pins begun := by
  have both := (machine pins hw).final_invariant Allowed
    (fun s => s.Underway ∧ s.stray = false ∧ s.Follows pins begun)
    (fun s e ⟨u, alone, h⟩ allowed =>
      ⟨u.step allowed, (step_stray pins hw s e).trans alone, h.step u alone allowed⟩)
    ⟨underway, alone, follows⟩ allowed
  exact ⟨both.1, both.2.2⟩

end Steps

/-- A frozen result and the records behind it: what it says of the bus follows from
the cycles on the pins that the drains passed on. -/
structure TellsPins (pins : Nat → U64) (begun : Nat) (s : Wired) : Prop where
  reports : s.caps.diag.result.Reports s.Evidence s.reads
  mem : s.lanes.mem.Tells (fallWords rawBitMreq pins) begun s.now
  io : s.lanes.io.Tells (fallWords rawBitIorq pins) begun s.now
  txn : s.lanes.txn.Tells (riseWords pins) begun s.now
  logged : ∀ w ∈ s.examined, w ∈ s.caps.alog.words

/-- High phases of /MREQ, /IORQ and /RD that the capture programs can follow. -/
structure Paced (pins : Nat → U64) : Prop where
  mreq : Wave.HighFor (pinLine pins rawBitMreq) (bdSampleClock + 2)
  iorq : Wave.HighFor (pinLine pins rawBitIorq) (bdSampleClock + 2)
  rd : Wave.HighFor (pinLine pins rawBitRd) 2

/-- If nothing has left channel 0 aimed at the FIFO that the reads are captured through, the
result of a round tells of the pins. -/
theorem frozen_tells_pins {pins : Nat → U64} (paced : Paced pins) (hw : CaptureHandles)
    {start : Wired} (reached : start.Reached) (alone : start.stray = false)
    (rearm : start.caps.AtRearm) (nowMs : U32) (snap : BusProbeSnapshot) {round : List WiredEvent}
    (allowed : (machine pins hw).Along Allowed start (.tick nowMs snap :: round))
    (done : ((machine pins hw).final start (.tick nowMs snap :: round)).caps.diag.phase = .done)
    (short : ((machine pins hw).final start (.tick nowMs snap :: round)).reads.length < 2 ^ 31) :
    ((machine pins hw).final start (.tick nowMs snap :: round)).TellsPins pins start.now := by
  have begins : ((machine pins hw).step start (.tick nowMs snap)).1.Underway ∧
      ((machine pins hw).step start (.tick nowMs snap)).1.Follows pins start.now :=
    rearmed hw reached.caps.sound rearm nowMs snap
  obtain ⟨underway, follows⟩ := follows_of_run begins.1 alone begins.2 allowed.2
  rw [Machine.final_cons] at done short ⊢
  have parked := underway.sound.away (by simp [done]) (by simp [done])
  obtain ⟨mem, io, txn⟩ := follows.rings.at_ parked
  obtain ⟨events, detect, all⟩ := follows.fits.detect
  obtain ⟨d, bi, result⟩ := underway.frozen done
  refine ⟨?_, ?_, ?_, ?_, follows.fits.examined⟩
  · rw [result, detect]
    exact d.freezeResult_reports all (bi.trans follows.fits.bi) short
  · rw [← gatedCapture_words paced.mreq]
    exact mem.tells
  · rw [← gatedCapture_words paced.iorq]
    exact io.tells
  · rw [← txnReadCapture_words paced.rd]
    exact txn.tells

/-! ## One opcode fetch -/

/-- The fetch at 0000 that follows a reset, 15 clocks long; address and data lines low. -/
def fetchPins (n : Nat) : U64 := if 2 ≤ n ∧ n < 17 then 0x2A000000#64 else 0x3F000000#64

theorem fetchPins_high {gpio clocks : Nat} (idle : (0x3F000000#64).getLsbD gpio = true) :
    Wave.HighFor (pinLine fetchPins gpio) clocks := by
  rintro r ⟨begun, low, high⟩ j -
  simp only [pinLine, fetchPins] at low high ⊢
  have inside : 2 ≤ r - 1 ∧ r - 1 < 17 := by
    by_contra outside
    rw [if_neg outside] at low
    exact Wave.clash idle low
  by_cases still : 2 ≤ r ∧ r < 17
  · rw [if_pos inside] at low
    rw [if_pos still] at high
    exact Wave.clash high low
  · rw [if_neg (by omega)]
    exact idle

theorem fetchPins_paced : Paced fetchPins :=
  ⟨fetchPins_high rfl, fetchPins_high rfl, fetchPins_high rfl⟩

/-- A state machine as the chip leaves it. -/
def resetSm : Sm :=
  { enabled := false, pc := 0, delay := 0, x := 0#32, osr := 0#32, isr := 0#32, isrCount := 0
    tx := [], rx := [], level := fun _ => false, dir := fun _ => false }

def resetLane : Lane := ⟨resetSm, [], .fresh 0⟩

/-- The first round, up to its first re-arm. -/
def fetchStart : Wired where
  now := 0
  lanes := ⟨resetLane, resetLane, resetLane⟩
  caps := Captures.machine.final (Captures.initial Captures.sampleMemory) Captures.firstRound
  stray := false
  examined := []

/-- The fetch is captured and drained, then the passes end. -/
def fetchRound : List WiredEvent :=
  List.replicate 20 .clock ++ [.memDma, .txnDma] ++ List.replicate 7 (.core1 0#64) ++
    (Captures.passTicks BootDiag.windowMs 3).map (.tick · BusProbe.unpublished)

/-- The channels behind the one of the log, in the order in which they are claimed. -/
def fetchHandles : CaptureHandles := ⟨⟨0, 4, 1, 2⟩, ⟨0, 3⟩, by decide, by decide⟩

theorem frozen_tells_pins_fetch :
    ((machine fetchPins fetchHandles).final fetchStart
      (.tick 0#32 BusProbe.unpublished :: fetchRound)).TellsPins fetchPins fetchStart.now ∧
    bitSet ((machine fetchPins fetchHandles).final fetchStart
      (.tick 0#32 BusProbe.unpublished :: fetchRound)).caps.diag.result.phaseFlags
        BootPhase.resetVector.index = true :=
  ⟨frozen_tells_pins fetchPins_paced fetchHandles
    ⟨Captures.sampleMemory, Captures.firstRound, by decide, rfl, by decide⟩ rfl (by decide) 0#32
    BusProbe.unpublished (by decide +kernel) (by decide +kernel) (by decide +kernel),
    by decide +kernel⟩

end Wired

end MsxPulse.Firmware
