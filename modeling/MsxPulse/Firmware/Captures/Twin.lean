import MsxPulse.Firmware.BootDetect.Specification
import MsxPulse.Firmware.Captures.Rearm

/-!
# Two runs of one round

Two histories meet at a round's first re-arm and from there on see the same
events. `Twin` relates their states: everything the result depends on is equal,
except that the logs may differ in words the detector ignores. It also bounds
the evidence: whatever either run can still read was captured in the round.
-/

namespace MsxPulse.Firmware

/-! ## Rings -/

/-- What a read returns depends on the words written since the channel was armed,
also after the channel has lapped the reader. -/
theorem DmaRing.exists_read {words : List U32} {rd : U32}
    (inside : words.length < 4096 → rd.toNat < words.length) :
    ∃ w ∈ words, ∀ r : DmaRing, r.Tracks words → r.read rd = w := by
  have slot (i : Nat) (same : i % 4096 = rd.toNat % 4096) (r : DmaRing) :
      r.read rd = r.read (BitVec.ofNat 32 i) := by
    have masked : rd &&& (ringLen - 1#32) = BitVec.ofNat 32 i &&& (ringLen - 1#32) := by
      apply BitVec.eq_of_toNat_eq
      rw [toNat_and_lenMask, toNat_and_lenMask, BitVec.toNat_ofNat]
      omega
    unfold DmaRing.read
    rw [masked]
  by_cases short : words.length < 4096
  · have first := inside short
    refine ⟨words[rd.toNat], List.getElem_mem first, fun r t => ?_⟩
    rw [slot rd.toNat rfl r]
    exact t.read first (by omega)
  · -- the last position that used this slot
    obtain ⟨i, same, last, recent⟩ : ∃ i, i % 4096 = rd.toNat % 4096 ∧ i < words.length ∧
        words.length ≤ i + 4096 :=
      ⟨(words.length - 1 - rd.toNat % 4096) / 4096 * 4096 + rd.toNat % 4096, by omega, by omega,
        by omega⟩
    refine ⟨words[i], List.getElem_mem last, fun r t => ?_⟩
    rw [slot i same r]
    exact t.read last recent

/-- A cursor that has counted fewer words than a ring holds counts exactly. -/
def RingCursor.Within (c : RingCursor) (stored : Nat) : DrainPc → Prop
  | .out => c.waddrTotal = c.waddrPrev ∧ c.waddrPrev.toNat ≤ stored ∧ c.rd = c.waddrTotal
  | .loop total rd =>
    c.waddrTotal = c.waddrPrev ∧ c.waddrPrev.toNat ≤ stored ∧ total = c.waddrTotal ∧
      rd.toNat ≤ total.toNat

theorem RingCursor.beginDrain_congr (c : RingCursor) {r r' : DmaRing} {words : List U32}
    (tracks : r.Tracks words) (tracks' : r'.Tracks words) : c.beginDrain r = c.beginDrain r' := by
  unfold RingCursor.beginDrain RingCursor.dmaTotal
  rw [tracks.offset, tracks'.offset]

theorem RingCursor.Within.beginDrain {c : RingCursor} {r : DmaRing} {words : List U32}
    (within : c.Within words.length .out) (tracks : r.Tracks words)
    (short : words.length < 4096) :
    (c.beginDrain r).1.Within words.length
      (.loop (c.beginDrain r).2.1 (c.beginDrain r).2.2) := by
  obtain ⟨total, le, caughtUp⟩ := within
  have prev : c.waddrPrev = BitVec.ofNat 32 (c.waddrPrev.toNat % 4096) := by
    rw [Nat.mod_eq_of_lt (by omega), BitVec.ofNat_toNat, BitVec.setWidth_eq]
  have counted := RingCursor.dmaTotal_eq tracks
    (total.trans (by rw [BitVec.ofNat_toNat, BitVec.setWidth_eq])) prev le (by omega)
  rw [RingCursor.beginDrain_eq r caughtUp, counted, Nat.mod_eq_of_lt short]
  refine ⟨rfl, ?_, rfl, ?_⟩
  · show (BitVec.ofNat 32 words.length).toNat ≤ words.length
    rw [BitVec.toNat_ofNat]
    exact Nat.mod_le _ _
  · show c.rd.toNat ≤ (BitVec.ofNat 32 words.length).toNat
    rw [caughtUp, total, BitVec.toNat_ofNat]
    omega

/-- Two rings that a drain cannot tell apart, and whose words are all `good`. -/
structure RingTwin (good : U32 → Prop) (pc : DrainPc) (r r' : RingCapture) : Prop where
  cursor : r.cursor = r'.cursor
  running : r.running = r'.running
  claimed : r.claimed = true
  claimed' : r'.claimed = true
  words : ∃ words, r.dma.Tracks words ∧ r'.dma.Tracks words ∧ (∀ w ∈ words, good w) ∧
    (words.length < 4096 → r.cursor.Within words.length pc)

namespace RingTwin

variable {good : U32 → Prop} {r r' : RingCapture} {pc : DrainPc} {total rd : U32}

theorem reset (claimed : r.claimed = true) (claimed' : r'.claimed = true) :
    RingTwin good .out r.reset r'.reset where
  cursor := rfl
  running := rfl
  claimed := claimed
  claimed' := claimed'
  words := ⟨[], r.dma.arm_tracks, r'.dma.arm_tracks, by simp, fun _ => ⟨rfl, Nat.le_refl 0, rfl⟩⟩

theorem stop (twin : RingTwin good pc r r') : RingTwin good pc r.stop r'.stop :=
  { twin with running := rfl }

theorem store (twin : RingTwin good pc r r') {word : U32} (isGood : good word) :
    RingTwin good pc (r.store word) (r'.store word) := by
  obtain ⟨words, tracks, tracks', all, within⟩ := twin.words
  refine { twin with
    words := ⟨words ++ [word], tracks.write word, tracks'.write word, ?_, ?_⟩ }
  · intro w member
    rcases List.mem_append.mp member with old | new
    · exact all w old
    · exact List.mem_singleton.mp new ▸ isGood
  · rw [List.length_append, List.length_singleton]
    intro short
    have before := within (by omega)
    cases pc with
    | out => exact ⟨before.1, Nat.le_succ_of_le before.2.1, before.2.2⟩
    | loop total rd => exact ⟨before.1, Nat.le_succ_of_le before.2.1, before.2.2⟩

theorem beginDrain_eq (twin : RingTwin good .out r r') :
    r'.beginDrain.2 = r.beginDrain.2 := by
  obtain ⟨words, tracks, tracks', -, -⟩ := twin.words
  unfold RingCapture.beginDrain
  rw [← twin.cursor, RingCursor.beginDrain_congr _ tracks tracks']

theorem beginDrain (twin : RingTwin good .out r r') :
    RingTwin good (.loop r.beginDrain.2.1 r.beginDrain.2.2) r.beginDrain.1 r'.beginDrain.1 := by
  obtain ⟨words, tracks, tracks', all, within⟩ := twin.words
  refine { twin with cursor := ?_, words := ⟨words, tracks, tracks', all, ?_⟩ }
  · show (r.cursor.beginDrain r.dma).1 = (r'.cursor.beginDrain r'.dma).1
    rw [← twin.cursor, RingCursor.beginDrain_congr _ tracks tracks']
  · exact fun short => (within short).beginDrain tracks short

theorem rd_lt {stored : Nat} (before : r.cursor.Within stored (.loop total rd)) (more : rd ≠ total) :
    rd.toNat < total.toNat :=
  Nat.lt_of_le_of_ne before.2.2.2 fun same => more (BitVec.eq_of_toNat_eq same)

theorem read (twin : RingTwin good (.loop total rd) r r') (more : rd ≠ total) :
    r'.dma.read rd = r.dma.read rd ∧ good (r.dma.read rd) := by
  obtain ⟨words, tracks, tracks', all, within⟩ := twin.words
  have inside (short : words.length < 4096) : rd.toNat < words.length := by
    have before := within short
    have below := rd_lt before more
    have counted := before.2.1
    rw [before.2.2.1, before.1] at below
    omega
  obtain ⟨w, member, reads⟩ := DmaRing.exists_read inside
  rw [reads r.dma tracks, reads r'.dma tracks']
  exact ⟨rfl, all w member⟩

theorem turn (twin : RingTwin good (.loop total rd) r r') (more : rd ≠ total) :
    RingTwin good (.loop total (rd + 1#32)) r r' := by
  obtain ⟨words, tracks, tracks', all, within⟩ := twin.words
  refine { twin with words := ⟨words, tracks, tracks', all, fun short => ?_⟩ }
  have before := within short
  have below := rd_lt before more
  refine ⟨before.1, before.2.1, before.2.2.1, ?_⟩
  rw [BitVec.toNat_add]
  exact Nat.le_trans (Nat.mod_le _ _) below

theorem endDrain (twin : RingTwin good (.loop total rd) r r') (finished : rd = total) :
    RingTwin good .out (r.endDrain rd) (r'.endDrain rd) := by
  obtain ⟨words, tracks, tracks', all, within⟩ := twin.words
  refine { twin with cursor := ?_, words := ⟨words, tracks, tracks', all, fun short => ?_⟩ }
  · show ({ r.cursor with rd := rd } : RingCursor) = { r'.cursor with rd := rd }
    rw [twin.cursor]
  · have before := within short
    exact ⟨before.1, before.2.1, finished.trans before.2.2.1⟩

end RingTwin

/-! ## Evidence -/

/-- The bus cycle that the detector sees in a captured word. -/
def CaptureEvent.cycle : CaptureEvent → Option BootBusEvent
  | .memWord word => BootCapture.decodeMem word
  | .ioWord word => BootCapture.decodeIo word
  | .cartRead word =>
    if BootCapture.headerRead word then some (BootCapture.headerEvent word) else none
  | _ => none

/-- What a round consists of: no command of the user. -/
def CaptureEvent.OfRound : CaptureEvent → Prop
  | .start => False
  | .command _ => False
  | .combo => False
  | _ => True

/-- Every phase bit is triggered by one of these bus cycles. -/
def Justified (cycles : List BootBusEvent) (flags : U16) : Prop :=
  ∀ p : BootPhase, bitSet flags p.index = true → ∃ ev ∈ cycles, ev.Triggers p

theorem Justified.feed {cycles : List BootBusEvent} {s : BootDetect}
    (justified : Justified cycles s.phaseFlags) {ev : BootBusEvent} (member : ev ∈ cycles) :
    Justified cycles (s.feed ev).phaseFlags := by
  intro p set
  have either := BootDetect.observed_feed s ev p
  rw [show (s.feed ev).observed p = true from set] at either
  rcases Bool.or_eq_true _ _ |>.mp either.symm with before | now
  · exact justified p before
  · exact ⟨ev, member, of_decide_eq_true now⟩

theorem Justified.feedDecoded {cycles : List BootBusEvent} {s : BootDetect}
    (justified : Justified cycles s.phaseFlags) {dec : U32 → Option BootBusEvent} {raw : U32}
    (member : ∀ ev, dec raw = some ev → ev ∈ cycles) :
    Justified cycles (BootCapture.feedDecoded dec s raw).phaseFlags := by
  unfold BootCapture.feedDecoded
  split
  · exact justified.feed (member _ ‹_›)
  · exact justified

theorem Justified.feedAll {cycles : List BootBusEvent} {s : BootDetect}
    (justified : Justified cycles s.phaseFlags) {events : List BootBusEvent}
    (members : ∀ ev ∈ events, ev ∈ cycles) : Justified cycles (s.feedAll events).phaseFlags := by
  induction events generalizing s with
  | nil => exact justified
  | cons ev events ih =>
    exact ih (justified.feed (members ev List.mem_cons_self))
      fun ev' member => members ev' (List.mem_cons_of_mem _ member)

/-! ## Orchestrators -/

/-- Two orchestrators in the same round. -/
structure BootDiag.SameRound (d d' : BootDiag) : Prop where
  captureActive : d.captureActive = d'.captureActive
  bi : d.bi = d'.bi
  phase : d.phase = d'.phase
  pass : d.pass = d'.pass
  deadlineMs : d.deadlineMs = d'.deadlineMs
  anomAccum : d.anomAccum = d'.anomAccum
  request : d.request = false
  request' : d'.request = false
  begun : d.phase ≠ .idle
  result : d.phase = .done → d.result = d'.result

theorem BootDiag.SameRound.tick {d d' : BootDiag} (same : d.SameRound d')
    (snap : BusProbeSnapshot) (bs : BootDetect) (nowMs : U32) :
    (d.tick snap bs nowMs).1.SameRound (d'.tick snap bs nowMs).1 ∧
      (d'.tick snap bs nowMs).2 = (d.tick snap bs nowMs).2 := by
  obtain ⟨active, bi, phase, pass, deadline, anom, request, request', begun, result⟩ := same
  cases d with | mk active₁ bi₁ inited₁ request₁ phase₁ pass₁ deadline₁ anom₁ result₁ =>
  cases d' with | mk active₂ bi₂ inited₂ request₂ phase₂ pass₂ deadline₂ anom₂ result₂ =>
  dsimp only at *
  subst active bi phase pass deadline anom request request'
  cases phase₁ with
  | idle => exact absurd rfl begun
  | done => exact ⟨⟨rfl, rfl, rfl, rfl, rfl, rfl, rfl, rfl, begun, result⟩, rfl⟩
  | passBegin =>
    exact ⟨⟨rfl, rfl, rfl, rfl, rfl, rfl, rfl, rfl, BootDiagPhase.noConfusion,
      BootDiagPhase.noConfusion⟩, rfl⟩
  | capturing =>
    simp only [BootDiag.tick, BootDiag.tickCapturing]
    split
    · exact ⟨⟨rfl, rfl, rfl, rfl, rfl, rfl, rfl, rfl, BootDiagPhase.noConfusion,
        BootDiagPhase.noConfusion⟩, rfl⟩
    · exact ⟨⟨rfl, rfl, rfl, rfl, rfl, rfl, rfl, rfl, BootDiagPhase.noConfusion,
        BootDiagPhase.noConfusion⟩, rfl⟩
  | settle =>
    simp only [BootDiag.tick, BootDiag.tickSettle]
    split
    · split
      · exact ⟨⟨rfl, rfl, rfl, rfl, rfl, rfl, rfl, rfl, BootDiagPhase.noConfusion,
          fun _ => rfl⟩, rfl⟩
      · exact ⟨⟨rfl, rfl, rfl, rfl, rfl, rfl, rfl, rfl, BootDiagPhase.noConfusion,
          BootDiagPhase.noConfusion⟩, rfl⟩
    · exact ⟨⟨rfl, rfl, rfl, rfl, rfl, rfl, rfl, rfl, BootDiagPhase.noConfusion,
        BootDiagPhase.noConfusion⟩, rfl⟩

/-! ## Logs -/

/-- Two logs that a drain from these cursors cannot tell apart: their header reads
are the same, and so are those still unread. -/
structure LogTwin (cycles : List BootBusEvent) (b b' : AlogBuffer) (rd rd' : U16) : Prop where
  shown : b.words.filter BootCapture.headerRead = b'.words.filter BootCapture.headerRead
  unread : (b.words.drop rd.toNat).filter BootCapture.headerRead =
    (b'.words.drop rd'.toNat).filter BootCapture.headerRead
  within : rd.toNat ≤ b.words.length
  within' : rd'.toNat ≤ b'.words.length
  captured : ∀ w ∈ b.words, BootCapture.headerRead w = true → BootCapture.headerEvent w ∈ cycles

namespace LogTwin

open BootCapture

variable {cycles : List BootBusEvent} {b b' : AlogBuffer} {rd rd' : U16}

theorem rewind (twin : LogTwin cycles b b' rd rd') : LogTwin cycles b b' 0#16 0#16 where
  shown := twin.shown
  unread := twin.shown
  within := Nat.zero_le _
  within' := Nat.zero_le _
  captured := twin.captured

/-- Two logs without header reads. -/
theorem ofClean (clean : b.words.filter headerRead = []) (clean' : b'.words.filter headerRead = []) :
    LogTwin cycles b b' 0#16 0#16 where
  shown := clean.trans clean'.symm
  unread := clean.trans clean'.symm
  within := Nat.zero_le _
  within' := Nat.zero_le _
  captured := fun w member header =>
    absurd (List.mem_filter.mpr ⟨member, header⟩) (by simp [clean])

theorem store (twin : LogTwin cycles b b' rd rd') (positioned : b.Positioned)
    (positioned' : b'.Positioned) (room : b.HasRoom) (room' : b'.HasRoom) {word : U32}
    (member : headerRead word = true → headerEvent word ∈ cycles) :
    LogTwin cycles (b.store word) (b'.store word) rd rd' := by
  have words := AlogBuffer.store_words positioned room word
  have words' := AlogBuffer.store_words positioned' room' word
  constructor
  · rw [words, words', List.filter_append, List.filter_append, twin.shown]
  · rw [words, words', List.drop_append_of_le_length twin.within,
      List.drop_append_of_le_length twin.within', List.filter_append, List.filter_append,
      twin.unread]
  · rw [words, List.length_append]
    exact Nat.le_add_right_of_le twin.within
  · rw [words', List.length_append]
    exact Nat.le_add_right_of_le twin.within'
  · intro w inLog header
    rw [words] at inLog
    rcases List.mem_append.mp inLog with old | new
    · exact twin.captured w old header
    · rw [List.mem_singleton] at new
      exact new ▸ member (new ▸ header)

theorem drainAlog_snd (b : AlogBuffer) (rd : U16) (s : BootDetect)
    (within : rd.toNat ≤ b.words.length) : (drainAlog b rd s).2.toNat = b.words.length := by
  rw [AlogBuffer.length_words] at within ⊢
  unfold drainAlog
  dsimp only
  split
  · rfl
  · rename_i caughtUp
    rw [BitVec.lt_def] at caughtUp
    omega

theorem drained_unread (b : AlogBuffer) (rd : U16) (s : BootDetect)
    (within : rd.toNat ≤ b.words.length) :
    (b.words.drop (drainAlog b rd s).2.toNat).filter headerRead = [] := by
  rw [drainAlog_snd b rd s within, List.drop_length]
  rfl

theorem drain (twin : LogTwin cycles b b' rd rd') (s : BootDetect) :
    LogTwin cycles b b' (drainAlog b rd s).2 (drainAlog b' rd' s).2 where
  shown := twin.shown
  unread := (drained_unread b rd s twin.within).trans (drained_unread b' rd' s twin.within').symm
  within := Nat.le_of_eq (drainAlog_snd b rd s twin.within)
  within' := Nat.le_of_eq (drainAlog_snd b' rd' s twin.within')
  captured := twin.captured

theorem drain_fst (twin : LogTwin cycles b b' rd rd') (s : BootDetect) :
    (drainAlog b' rd' s).1 = (drainAlog b rd s).1 := by
  rw [drainAlog_fst, drainAlog_fst, foldl_feedCartRead, foldl_feedCartRead, twin.unread]

theorem drain_justified (twin : LogTwin cycles b b' rd rd') {s : BootDetect}
    (justified : Justified cycles s.phaseFlags) :
    Justified cycles (drainAlog b rd s).1.phaseFlags := by
  rw [drainAlog_fst, foldl_feedCartRead]
  refine justified.feedAll fun ev member => ?_
  obtain ⟨w, unread, rfl⟩ := List.mem_map.mp member
  obtain ⟨inLog, header⟩ := List.mem_filter.mp unread
  exact twin.captured w (List.mem_of_mem_drop inLog) header

end LogTwin

/-! ## Whole states -/

namespace Core1

/-- Core 1's position in the drain of one ring. -/
def memPc : Core1 → DrainPc
  | .mem total rd => .loop total rd
  | _ => .out

def ioPc : Core1 → DrainPc
  | .io total rd => .loop total rd
  | _ => .out

def txnPc : Core1 → DrainPc
  | .txn total rd => .loop total rd
  | _ => .out

end Core1

namespace Captures

open Library BootDiag

/-- Two states of one round, whose evidence is all among these bus cycles. -/
structure Twin (cycles : List BootBusEvent) (s t : Captures) : Prop where
  diag : s.diag.SameRound t.diag
  detect : t.detect = s.detect
  core1 : t.core1 = s.core1
  mem : RingTwin (fun w => ∀ ev, BootCapture.decodeMem w = some ev → ev ∈ cycles)
    s.core1.memPc s.mem t.mem
  io : RingTwin (fun w => ∀ ev, BootCapture.decodeIo w = some ev → ev ∈ cycles)
    s.core1.ioPc s.io t.io
  txn : RingTwin (fun _ => True) s.core1.txnPc s.txn t.txn
  log : LogTwin cycles s.alog t.alog s.alogRd t.alogRd
  seen : Justified cycles s.detect.phaseFlags
  frozen : s.diag.phase = .done → Justified cycles s.diag.result.phaseFlags

namespace Twin

variable {cycles : List BootBusEvent} {s t : Captures}

theorem tick (twin : Twin cycles s t) (sound : s.Sound) (nowMs : U32) (snap : BusProbeSnapshot) :
    Twin cycles (s.tick nowMs snap) (t.tick nowMs snap) := by
  have both := twin.diag.tick snap s.detect nowMs
  have outcome := tick_outcome s.diag snap s.detect nowMs
  have other : t.tick nowMs snap = (s.diag.tick snap s.detect nowMs).2.foldl perform
      { t with diag := (t.diag.tick snap s.detect nowMs).1 } := by
    unfold Captures.tick
    rw [twin.detect]
    dsimp only
    rw [both.2]
  rw [other]
  replace both := both.1
  unfold Captures.tick
  generalize (t.diag.tick snap s.detect nowMs).1 = d' at both
  generalize s.diag.tick snap s.detect nowMs = next at outcome both
  cases outcome with
  | wait => exact { twin with diag := both }
  | beginRound ready requested =>
    rw [twin.diag.request] at requested
    exact absurd requested Bool.false_ne_true
  | beginPass armed =>
    have head := sound.away (by simp [armed]) (by simp [armed])
    dsimp only
    rw [perform_rearm _ twin.mem.claimed twin.txn.claimed,
      perform_rearm _ twin.mem.claimed' twin.txn.claimed']
    exact { twin with
      diag := both
      mem := by rw [head]; exact .reset twin.mem.claimed twin.mem.claimed'
      io := by rw [head]; exact .reset twin.io.claimed twin.io.claimed'
      txn := by rw [head]; exact .reset twin.txn.claimed twin.txn.claimed'
      log := twin.log.rewind
      frozen := nofun }
  | endWindow capturing late =>
    dsimp only
    rw [perform_stop _ twin.txn.claimed, perform_stop _ twin.txn.claimed']
    exact { twin with
      diag := both, mem := twin.mem.stop, io := twin.io.stop, txn := twin.txn.stop
      frozen := nofun }
  | nextPass => exact { twin with diag := both, frozen := nofun }
  | finish => exact { twin with diag := both, frozen := fun _ => twin.seen }

theorem rings (twin : Twin cycles s t) {core1 : Core1} (at_ : s.core1 = core1) :
    RingTwin (fun w => ∀ ev, BootCapture.decodeMem w = some ev → ev ∈ cycles)
        core1.memPc s.mem t.mem ∧
      RingTwin (fun w => ∀ ev, BootCapture.decodeIo w = some ev → ev ∈ cycles)
        core1.ioPc s.io t.io ∧
      RingTwin (fun _ => True) core1.txnPc s.txn t.txn := by
  subst at_
  exact ⟨twin.mem, twin.io, twin.txn⟩

theorem beginMem (twin : Twin cycles s t) (head : s.core1 = .head) (nowUs : U64) :
    Twin cycles (s.beginMem nowUs) (t.beginMem nowUs) := by
  obtain ⟨mem, io, txn⟩ := twin.rings head
  unfold Captures.beginMem
  rw [← twin.diag.captureActive]
  split
  · dsimp only
    rw [mem.beginDrain_eq]
    exact { twin with core1 := rfl, mem := mem.beginDrain, io := io, txn := txn }
  · exact twin

theorem turnMem (twin : Twin cycles s t) {total rd : U32} (loop : s.core1 = .mem total rd) :
    Twin cycles (s.turnMem total rd) (t.turnMem total rd) := by
  obtain ⟨mem, io, txn⟩ := twin.rings loop
  unfold Captures.turnMem
  by_cases finished : rd = total
  · dsimp only
    rw [if_pos finished, if_pos finished, io.beginDrain_eq]
    exact { twin with
      core1 := rfl, mem := mem.endDrain finished, io := io.beginDrain, txn := txn }
  · obtain ⟨same, good⟩ := mem.read finished
    rw [if_neg finished, if_neg finished, same, twin.detect]
    exact { twin with
      detect := rfl, core1 := rfl, mem := mem.turn finished, io := io, txn := txn
      seen := twin.seen.feedDecoded good }

theorem turnIo (twin : Twin cycles s t) {total rd : U32} (loop : s.core1 = .io total rd) :
    Twin cycles (s.turnIo total rd) (t.turnIo total rd) := by
  obtain ⟨mem, io, txn⟩ := twin.rings loop
  unfold Captures.turnIo
  by_cases finished : rd = total
  · rw [if_pos finished, if_pos finished]
    exact { twin with core1 := rfl, mem := mem, io := io.endDrain finished, txn := txn }
  · obtain ⟨same, good⟩ := io.read finished
    rw [if_neg finished, if_neg finished, same, twin.detect]
    exact { twin with
      detect := rfl, core1 := rfl, mem := mem, io := io.turn finished, txn := txn
      seen := twin.seen.feedDecoded good }

theorem turnAlog (twin : Twin cycles s t) (loop : s.core1 = .alog) :
    Twin cycles s.turnAlog t.turnAlog := by
  obtain ⟨mem, io, txn⟩ := twin.rings loop
  unfold Captures.turnAlog
  rw [twin.detect]
  dsimp only
  rw [if_pos txn.claimed, if_pos txn.claimed', txn.beginDrain_eq, twin.log.drain_fst]
  exact { twin with
    detect := rfl, core1 := rfl, mem := mem, io := io, txn := txn.beginDrain
    log := twin.log.drain s.detect
    seen := twin.log.drain_justified twin.seen }

theorem turnTxn (twin : Twin cycles s t) {total rd : U32} (loop : s.core1 = .txn total rd) :
    Twin cycles (s.turnTxn total rd) (t.turnTxn total rd) := by
  obtain ⟨mem, io, txn⟩ := twin.rings loop
  unfold Captures.turnTxn
  by_cases finished : rd = total
  · rw [if_pos finished, if_pos finished]
    exact { twin with core1 := rfl, mem := mem, io := io, txn := txn.endDrain finished }
  · rw [if_neg finished, if_neg finished, (txn.read finished).1, ← twin.diag.bi]
    exact { twin with
      diag := { twin.diag with bi := rfl }
      core1 := rfl, mem := mem, io := io, txn := txn.turn finished }

theorem core1Step (twin : Twin cycles s t) (nowUs : U64) :
    Twin cycles (s.core1Step nowUs) (t.core1Step nowUs) := by
  unfold Captures.core1Step
  rw [twin.core1]
  cases at_ : s.core1 with
  | head => exact twin.beginMem at_ nowUs
  | mem total rd => exact twin.turnMem at_
  | io total rd => exact twin.turnIo at_
  | alog => exact twin.turnAlog at_
  | txn total rd => exact twin.turnTxn at_

/-- Events of a round keep the relation. -/
theorem step (twin : Twin cycles s t) (sound : s.Sound) (sound' : t.Sound) {e : CaptureEvent}
    (ofRound : e.OfRound) (possible : s.Possible e) (possible' : t.Possible e)
    (member : ∀ ev, e.cycle = some ev → ev ∈ cycles) :
    Twin cycles (machine.step s e).1 (machine.step t e).1 := by
  cases e with
  | tick nowMs snap => exact twin.tick sound nowMs snap
  | core1 nowUs => exact twin.core1Step nowUs
  | memWord word => exact { twin with mem := twin.mem.store member }
  | ioWord word => exact { twin with io := twin.io.store member }
  | txnWord word => exact { twin with txn := twin.txn.store trivial }
  | cartRead word =>
    refine { twin with log := twin.log.store sound.log sound'.log possible possible' ?_ }
    exact fun header => member _ (by simp [CaptureEvent.cycle, header])
  | start => exact ofRound.elim
  | command cmd => exact ofRound.elim
  | combo => exact ofRound.elim

end Twin

end Captures

end MsxPulse.Firmware
