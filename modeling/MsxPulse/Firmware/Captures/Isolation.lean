import MsxPulse.Firmware.Captures.Twin

/-!
# Isolation of diagnostic rounds

A round takes nothing over from the past through its rings and accumulators, which
are all re-armed. The cart-read log is not: `boot_capture_reset` takes the log's
cursor back to the start and leaves the log to `msx_reset_pulse`, which a passive
round never calls. Rounds are isolated exactly as long as the log shows no read of
the cartridge header when they begin.
-/

namespace MsxPulse.Firmware.Captures

open Library BootDiag BootCapture

/-- The same round follows two histories: it begins with the re-arm, contains no
command, is possible after both and gets as far as a frozen result. -/
structure NextRound (s t : Captures) (round : List CaptureEvent) : Prop where
  rearms : ∃ nowMs snap rest, round = .tick nowMs snap :: rest
  quiet : ∀ e ∈ round, e.OfRound
  possible : machine.Along Possible s round
  possible' : machine.Along Possible t round
  done : (machine.final s round).diag.phase = .done
  done' : (machine.final t round).diag.phase = .done

/-- The bus cycles captured in a round. -/
def capturedCycles (round : List CaptureEvent) : List BootBusEvent := round.filterMap CaptureEvent.cycle

/-- The frozen results are equal, and their phases come from the round. -/
structure Isolated (s t : Captures) (round : List CaptureEvent) : Prop where
  same : (machine.final s round).diag.result = (machine.final t round).diag.result
  justified : Justified (capturedCycles round) (machine.final s round).diag.result.phaseFlags
  justified' : Justified (capturedCycles round) (machine.final t round).diag.result.phaseFlags

/-- The log shows no read of the cartridge header. -/
def CleanLog (s : Captures) : Prop := s.alog.words.filter headerRead = []

instance (s : Captures) : Decidable s.CleanLog := inferInstanceAs (Decidable (_ = _))

variable {s t : Captures}

theorem tick_passBegin (sound : s.Sound) (armed : s.diag.phase = .passBegin) (nowMs : U32)
    (snap : BusProbeSnapshot) :
    s.tick nowMs snap = { s with
      diag := { s.diag with
        captureActive := true, deadlineMs := nowMs + windowMs, phase := .capturing }
      mem := s.mem.reset, io := s.io.reset, txn := s.txn.reset
      watchdog := .reset, alogRd := 0#16 } := by
  have active := sound.running (by simp [armed]) (by simp [armed])
  obtain ⟨mem, -, txn⟩ := sound.claimed active.2.1
  unfold Captures.tick BootDiag.tick
  rw [armed]
  exact perform_rearm _ mem txn

theorem justified_reset (events : List BootBusEvent) :
    Justified events BootDetect.reset.phaseFlags := by
  intro p set
  exact absurd set (by cases p <;> decide)

/-- After the re-arm nothing tells two histories with clean logs apart. -/
theorem rearm_twin (events : List BootBusEvent) (sound : s.Sound) (sound' : t.Sound)
    (rearm : s.AtRearm) (rearm' : t.AtRearm) (clean : s.CleanLog) (clean' : t.CleanLog)
    (nowMs : U32) (snap : BusProbeSnapshot) :
    Twin events (s.tick nowMs snap) (t.tick nowMs snap) := by
  have active := sound.running (by simp [rearm.1]) (by simp [rearm.1])
  have active' := sound'.running (by simp [rearm'.1]) (by simp [rearm'.1])
  have fresh := sound.fresh rearm
  have fresh' := sound'.fresh rearm'
  have head := sound.away (by simp [rearm.1]) (by simp [rearm.1])
  have head' := sound'.away (by simp [rearm'.1]) (by simp [rearm'.1])
  have claims := sound.claimed active.2.1
  have claims' := sound'.claimed active'.2.1
  rw [tick_passBegin sound rearm.1, tick_passBegin sound' rearm'.1]
  exact
    { diag :=
        { captureActive := rfl
          bi := fresh.1.trans fresh'.1.symm
          phase := rfl
          pass := rearm.2.trans rearm'.2.symm
          deadlineMs := rfl
          anomAccum := fresh.2.1.trans fresh'.2.1.symm
          request := active.1
          request' := active'.1
          begun := nofun
          result := nofun }
      detect := fresh'.2.2.trans fresh.2.2.symm
      core1 := head'.trans head.symm
      mem := by rw [show s.core1 = _ from head]; exact .reset claims.1 claims'.1
      io := by rw [show s.core1 = _ from head]; exact .reset claims.2.1 claims'.2.1
      txn := by rw [show s.core1 = _ from head]; exact .reset claims.2.2 claims'.2.2
      log := .ofClean clean clean'
      seen := by rw [show s.detect = _ from fresh.2.2]; exact justified_reset events
      frozen := nofun }

/-- The relation is kept by the rest of the round. -/
theorem Twin.final {events : List BootBusEvent} {rest : List CaptureEvent}
    (twin : Twin events s t) (sound : s.Sound) (sound' : t.Sound)
    (quiet : ∀ e ∈ rest, e.OfRound) (possible : machine.Along Possible s rest)
    (possible' : machine.Along Possible t rest)
    (members : ∀ e ∈ rest, ∀ ev, e.cycle = some ev → ev ∈ events) :
    Twin events (machine.final s rest) (machine.final t rest) := by
  induction rest generalizing s t with
  | nil => exact twin
  | cons e rest ih =>
    have first := twin.step sound sound' (quiet e List.mem_cons_self) possible.1 possible'.1
      (members e List.mem_cons_self)
    exact ih first (sound.step possible.1) (sound'.step possible'.1)
      (fun e' h => quiet e' (List.mem_cons_of_mem _ h)) possible.2 possible'.2
      (fun e' h => members e' (List.mem_cons_of_mem _ h))

theorem isolated_of_clean (sound : s.Sound) (sound' : t.Sound) (rearm : s.AtRearm)
    (rearm' : t.AtRearm) (clean : s.CleanLog) (clean' : t.CleanLog)
    {round : List CaptureEvent} (next : NextRound s t round) : Isolated s t round := by
  obtain ⟨nowMs, snap, rest, rfl⟩ := next.rearms
  have members : ∀ e ∈ CaptureEvent.tick nowMs snap :: rest, ∀ ev, e.cycle = some ev →
      ev ∈ capturedCycles (.tick nowMs snap :: rest) :=
    fun e member ev cycle => List.mem_filterMap.mpr ⟨e, member, cycle⟩
  have start := rearm_twin (capturedCycles (.tick nowMs snap :: rest)) sound sound' rearm rearm'
    clean clean' nowMs snap
  have twin := start.final (sound.step next.possible.1) (sound'.step next.possible'.1)
    (fun e h => next.quiet e (List.mem_cons_of_mem _ h)) next.possible.2 next.possible'.2
    (fun e h => members e (List.mem_cons_of_mem _ h))
  have same := twin.diag.result next.done
  exact
    { same := same
      justified := twin.frozen next.done
      justified' := by
        have frozen := twin.frozen next.done
        rw [same] at frozen
        exact frozen }

/-! ## A round on a silent bus -/

theorem reached_self (t : U32) : reached t t = true := by
  simp [reached]

/-- The result is frozen and no round is asked for. -/
def Closed (bs : BootDetect) (d : BootDiag) : Prop :=
  d.request = false ∧ d.phase = .done ∧ d.result.phaseFlags = bs.phaseFlags

theorem Closed.tick {bs : BootDetect} {d : BootDiag} (closed : Closed bs d)
    (snap : BusProbeSnapshot) (nowMs : U32) : (d.tick snap bs nowMs).1 = d := by
  simp [BootDiag.tick, tickIdle, closed.2.1, closed.1]

/-- The two ticks that end a pass. -/
theorem endPass {d : BootDiag} (snap : BusProbeSnapshot) (bs : BootDetect)
    (capturing : d.phase = .capturing) (request : d.request = false) {t : U32}
    (deadline : d.deadlineMs = t) :
    Closed bs ((d.tick snap bs t).1.tick snap bs (t + 60#32)).1 ∨
      d.pass + 1#8 < maxPasses ∧
      (((d.tick snap bs t).1.tick snap bs (t + 60#32)).1.phase = .passBegin ∧
        ((d.tick snap bs t).1.tick snap bs (t + 60#32)).1.request = false ∧
        ((d.tick snap bs t).1.tick snap bs (t + 60#32)).1.pass = d.pass + 1#8) := by
  have window : (d.tick snap bs t).1 =
      { d with captureActive := false, deadlineMs := t + 60#32, phase := .settle } := by
    simp [BootDiag.tick, tickCapturing, capturing, deadline, reached_self]
  rw [window]
  simp only [BootDiag.tick, tickSettle, reached_self, if_true]
  split
  · exact .inl ⟨request, rfl, rfl⟩
  · rename_i unfinished
    rw [not_or] at unfinished
    exact .inr ⟨BitVec.not_le.mp unfinished.2, rfl, request, rfl⟩

/-- The tick times that take a round through its remaining passes. -/
def passTicks (t : U32) : Nat → List U32
  | 0 => []
  | passes + 1 => t :: (t + 60#32) :: (t + 60#32) :: passTicks (t + 60#32 + windowMs) passes

theorem passTicks_closed (snap : BusProbeSnapshot) (bs : BootDetect) {d : BootDiag} {t : U32}
    {n : Nat} (capturing : d.phase = .capturing) (request : d.request = false)
    (deadline : d.deadlineMs = t) (left : d.pass.toNat + n = 3) (more : d.pass.toNat < 3) :
    Closed bs ((passTicks t n).foldl (fun d now => (d.tick snap bs now).1) d) := by
  induction n generalizing d t with
  | zero => omega
  | succ n ih =>
    simp only [passTicks, List.foldl_cons]
    rcases endPass snap bs capturing request deadline with closed | ⟨below, armed, quiet, pass⟩
    · rw [closed.tick]
      generalize ((d.tick snap bs t).1.tick snap bs (t + 60#32)).1 = d' at closed
      clear ih left
      generalize passTicks (t + 60#32 + windowMs) n = times
      induction times with
      | nil => exact closed
      | cons now times ih =>
        rw [List.foldl_cons, closed.tick]
        exact ih
    · generalize ((d.tick snap bs t).1.tick snap bs (t + 60#32)).1 = d' at armed quiet pass
      have count : (d.pass + 1#8).toNat = d.pass.toNat + 1 := by
        rw [BitVec.toNat_add]
        simp
        omega
      have begun : (d'.tick snap bs (t + 60#32)).1 = { d' with
          captureActive := true, deadlineMs := t + 60#32 + windowMs, phase := .capturing } := by
        simp [BootDiag.tick, tickPassBegin, armed]
      rw [begun]
      refine ih rfl quiet rfl ?_ ?_
      · show d'.pass.toNat + n = 3
        rw [pass, count]
        omega
      · show d'.pass.toNat < 3
        rw [pass]
        exact BitVec.lt_def.mp below

theorem reset_beginDrain (r : RingCapture) : r.reset.beginDrain = (r.reset, 0#32, 0#32) := by
  simp [RingCapture.beginDrain, RingCapture.reset, RingCursor.beginDrain, RingCursor.dmaTotal,
    RingCursor.reset, DmaRing.arm]

theorem reset_endDrain (r : RingCapture) : r.reset.endDrain 0#32 = r.reset := rfl

/-- A round in which no bus cycle is captured: one drain, then the passes. -/
def silentRound (snap : BusProbeSnapshot) : List CaptureEvent :=
  .tick 0#32 snap :: (List.replicate 5 (.core1 0#64) ++
    (passTicks windowMs 3).map (.tick · snap))

theorem perform_diag (s : Captures) (c : DiagCall) : (s.perform c).diag = s.diag := by
  cases c <;> simp [perform, bootCaptureInit, txnCaptureReset, txnCaptureStop] <;> split <;> rfl

theorem perform_core1 (s : Captures) (c : DiagCall) : (s.perform c).core1 = s.core1 := by
  cases c <;> simp [perform, bootCaptureInit, txnCaptureReset, txnCaptureStop] <;> split <;> rfl

theorem foldl_perform_diag (s : Captures) (calls : List DiagCall) :
    (calls.foldl perform s).diag = s.diag := by
  induction calls generalizing s with
  | nil => rfl
  | cons c calls ih => rw [List.foldl_cons, ih, perform_diag]

theorem foldl_perform_core1 (s : Captures) (calls : List DiagCall) :
    (calls.foldl perform s).core1 = s.core1 := by
  induction calls generalizing s with
  | nil => rfl
  | cons c calls ih => rw [List.foldl_cons, ih, perform_core1]

theorem tick_diag (s : Captures) (nowMs : U32) (snap : BusProbeSnapshot) :
    (s.tick nowMs snap).diag = (s.diag.tick snap s.detect nowMs).1 := by
  unfold Captures.tick
  rw [foldl_perform_diag]

theorem tick_core1 (s : Captures) (nowMs : U32) (snap : BusProbeSnapshot) :
    (s.tick nowMs snap).core1 = s.core1 := by
  unfold Captures.tick
  rw [foldl_perform_core1]

theorem tick_request {d : BootDiag} (quiet : d.request = false) (snap : BusProbeSnapshot)
    (bs : BootDetect) (nowMs : U32) : (d.tick snap bs nowMs).1.request = false := by
  have outcome := tick_outcome d snap bs nowMs
  generalize d.tick snap bs nowMs = next at outcome
  cases outcome with
  | beginRound => rfl
  | wait | beginPass | endWindow | nextPass | finish => exact quiet

/-- A tick that begins no round leaves the detector alone. -/
theorem tick_detect (quiet : s.diag.request = false) (nowMs : U32) (snap : BusProbeSnapshot) :
    (s.tick nowMs snap).detect = s.detect := by
  have outcome := tick_outcome s.diag snap s.detect nowMs
  unfold Captures.tick
  generalize s.diag.tick snap s.detect nowMs = next at outcome
  cases outcome with
  | beginRound ready requested => exact absurd (quiet.symm.trans requested) Bool.false_ne_true
  | beginPass => simp [perform, txnCaptureReset]; split <;> simp
  | endWindow => simp [perform, txnCaptureStop]; split <;> rfl
  | wait | nextPass | finish => rfl

theorem final_ticks (snap : BusProbeSnapshot) (times : List U32) {s : Captures}
    (quiet : s.diag.request = false) (head : s.core1 = .head) :
    machine.Along Possible s (times.map (CaptureEvent.tick · snap)) ∧
      (machine.final s (times.map (CaptureEvent.tick · snap))).diag =
        times.foldl (fun d now => (d.tick snap s.detect now).1) s.diag := by
  induction times generalizing s with
  | nil => exact ⟨trivial, rfl⟩
  | cons now times ih =>
    have rest := ih (s := s.tick now snap) (by rw [tick_diag]; exact tick_request quiet _ _ _)
      ((tick_core1 s now snap).trans head)
    rw [tick_detect quiet, tick_diag] at rest
    exact ⟨⟨fun _ _ => head, rest.1⟩, rest.2⟩

/-- The drain of a round in which nothing has been captured yet. -/
theorem final_silent_drain (sound : s.Sound) (rearm : s.AtRearm) (snap : BusProbeSnapshot) :
    machine.final (s.tick 0#32 snap) (List.replicate 5 (.core1 0#64)) =
      { s.tick 0#32 snap with
        detect := (drainAlog s.alog 0#16 s.detect).1
        alogRd := (drainAlog s.alog 0#16 s.detect).2
        watchdog := Watchdog.reset.observe 0#64 } := by
  have head := sound.away (by simp [rearm.1]) (by simp [rearm.1])
  have active := sound.running (by simp [rearm.1]) (by simp [rearm.1])
  have claims := sound.claimed active.2.1
  rw [tick_passBegin sound rearm.1]
  simp [machine, List.replicate, core1Step, head, beginMem, turnMem, turnIo, turnAlog, turnTxn,
    reset_beginDrain, reset_endDrain, show s.txn.reset.claimed = true from claims.2.2]

/-- On a silent bus the result shows what the log held before the round. -/
theorem silentRound_frozen (sound : s.Sound) (rearm : s.AtRearm) (snap : BusProbeSnapshot) :
    machine.Along Possible s (silentRound snap) ∧
      (machine.final s (silentRound snap)).diag.phase = .done ∧
      (machine.final s (silentRound snap)).diag.result.phaseFlags =
        (drainAlog s.alog 0#16 .reset).1.phaseFlags := by
  have head := sound.away (by simp [rearm.1]) (by simp [rearm.1])
  have active := sound.running (by simp [rearm.1]) (by simp [rearm.1])
  have drained := final_silent_drain sound rearm snap
  have armed := tick_passBegin sound rearm.1 0#32 snap
  have ticks := final_ticks snap (passTicks windowMs 3)
    (s := machine.final (s.tick 0#32 snap) (List.replicate 5 (.core1 0#64)))
    (by rw [drained, armed]; exact active.1) (by rw [drained, armed]; exact head)
  have closed := passTicks_closed snap (drainAlog s.alog 0#16 s.detect).1
    (d := { s.diag with
      captureActive := true, deadlineMs := 0#32 + windowMs, phase := .capturing })
    (t := windowMs) (n := 3) rfl active.1 (BitVec.zero_add _)
    (by rw [show s.diag.pass = _ from rearm.2]; rfl)
    (by rw [show s.diag.pass = _ from rearm.2]; decide)
  have result : (machine.final s (silentRound snap)).diag =
      (passTicks windowMs 3).foldl
        (fun d now => (d.tick snap (drainAlog s.alog 0#16 s.detect).1 now).1)
        { s.diag with
          captureActive := true, deadlineMs := 0#32 + windowMs, phase := .capturing } := by
    unfold silentRound
    rw [Machine.final_cons, Machine.final_append]
    refine ticks.2.trans ?_
    rw [drained, armed]
  refine ⟨⟨fun settle => ?_, ?_⟩, ?_, ?_⟩
  · exact nomatch rearm.1.symm.trans settle
  · exact (Machine.along_append _ _ _ _ _).mpr ⟨by simp [List.replicate, Possible], ticks.1⟩
  · rw [result]
    exact closed.2.1
  · rw [result, closed.2.2, (sound.fresh rearm).2.2]

/-- A log that is not clean shows up in the result of a silent round. -/
theorem clean_of_silent (sound : s.Sound) (rearm : s.AtRearm) (snap : BusProbeSnapshot)
    (justified : Justified [] (machine.final s (silentRound snap)).diag.result.phaseFlags) :
    s.CleanLog := by
  rw [(silentRound_frozen sound rearm snap).2.2, drainAlog_fst, foldl_feedCartRead] at justified
  refine List.filter_eq_nil_iff.mpr fun w inLog header => ?_
  have seen : (BootDetect.reset.feedAll ((s.alog.words.filter headerRead).map headerEvent)).observed
      .cartScan = true := by
    refine (BootDetect.observed_iff _ .cartScan).mpr ⟨headerEvent w, ?_, .inr ⟨rfl, ?_⟩⟩
    · exact List.mem_map.mpr ⟨w, List.mem_filter.mpr ⟨inLog, header⟩, rfl⟩
    · exact of_decide_eq_true header
  obtain ⟨ev, member, -⟩ := justified .cartScan seen
  exact absurd member List.not_mem_nil

theorem silentRound_cycles (snap : BusProbeSnapshot) : capturedCycles (silentRound snap) = [] := by
  refine List.filterMap_eq_nil_iff.mpr fun e member => ?_
  simp only [silentRound, List.mem_cons, List.mem_append, List.mem_replicate, List.mem_map]
    at member
  rcases member with rfl | ⟨-, rfl⟩ | ⟨now, -, rfl⟩ <;> rfl

theorem silentRound_quiet (snap : BusProbeSnapshot) : ∀ e ∈ silentRound snap, e.OfRound := by
  intro e member
  simp only [silentRound, List.mem_cons, List.mem_append, List.mem_replicate, List.mem_map]
    at member
  rcases member with rfl | ⟨-, rfl⟩ | ⟨now, -, rfl⟩ <;> trivial

/-- Two histories are isolated from every next round exactly when neither leaves a
read of the cartridge header in the log. -/
theorem round_isolation (reached : s.Reached) (reached' : t.Reached) (rearm : s.AtRearm)
    (rearm' : t.AtRearm) :
    (∀ round, NextRound s t round → Isolated s t round) ↔ s.CleanLog ∧ t.CleanLog := by
  have sound := reached.sound
  have sound' := reached'.sound
  constructor
  · intro isolated
    have silent := silentRound_frozen sound rearm BusProbe.unpublished
    have silent' := silentRound_frozen sound' rearm' BusProbe.unpublished
    have next : NextRound s t (silentRound BusProbe.unpublished) :=
      { rearms := ⟨0#32, BusProbe.unpublished, _, rfl⟩
        quiet := silentRound_quiet _
        possible := silent.1
        possible' := silent'.1
        done := silent.2.1
        done' := silent'.2.1 }
    have result := isolated _ next
    have none := silentRound_cycles BusProbe.unpublished
    exact ⟨clean_of_silent sound rearm _ (none ▸ result.justified),
      clean_of_silent sound' rearm' _ (none ▸ result.justified')⟩
  · rintro ⟨clean, clean'⟩ round next
    exact isolated_of_clean sound sound' rearm rearm' clean clean' next

/-- One placement of the buffers in SRAM. -/
def sampleMemory : CaptureMemory where
  mem := ⟨0x20004000#32, rfl⟩
  io := ⟨0x20008000#32, rfl⟩
  txn := ⟨0x2000C000#32, rfl⟩
  alog := ⟨0x20010000#32, by decide⟩

/-- BOOT right after power-up, up to the first re-arm. -/
def firstRound : List CaptureEvent := [.start, .tick 0#32 BusProbe.unpublished]

/-- The same after a whole round in which the cartridge header was read once. -/
def secondRound : List CaptureEvent :=
  firstRound ++
    .tick 0#32 BusProbe.unpublished :: .cartRead 0x16414000#32 ::
    (passTicks windowMs 3).map (.tick · BusProbe.unpublished) ++ firstRound

theorem round_isolation_secondRound :
    (∀ round, NextRound (machine.final (initial sampleMemory) firstRound)
        (machine.final (initial sampleMemory) secondRound) round →
      Isolated (machine.final (initial sampleMemory) firstRound)
        (machine.final (initial sampleMemory) secondRound) round) ↔
      (machine.final (initial sampleMemory) firstRound).CleanLog ∧
        (machine.final (initial sampleMemory) secondRound).CleanLog :=
  round_isolation ⟨sampleMemory, firstRound, by decide, rfl⟩
    ⟨sampleMemory, secondRound, by decide +kernel, rfl⟩ (by decide) (by decide +kernel)

/-- With nothing on the bus, the second round reports the cart scan of the first. -/
theorem stale_cart_scan :
    ¬ ∀ s t : Captures, s.Reached → t.Reached → s.AtRearm → t.AtRearm →
      ∀ round, NextRound s t round → Isolated s t round := by
  intro claim
  have isolated := claim (machine.final (initial sampleMemory) firstRound)
    (machine.final (initial sampleMemory) secondRound)
    ⟨sampleMemory, firstRound, by decide, rfl⟩
    ⟨sampleMemory, secondRound, by decide +kernel, rfl⟩ (by decide) (by decide +kernel)
    (silentRound BusProbe.unpublished)
    { rearms := ⟨0#32, BusProbe.unpublished, _, rfl⟩
      quiet := silentRound_quiet _
      possible := by decide +kernel
      possible' := by decide +kernel
      done := by decide +kernel
      done' := by decide +kernel }
  have differ : (machine.final (machine.final (initial sampleMemory) firstRound)
        (silentRound BusProbe.unpublished)).diag.result.phaseFlags ≠
      (machine.final (machine.final (initial sampleMemory) secondRound)
        (silentRound BusProbe.unpublished)).diag.result.phaseFlags := by
    decide +kernel
  exact differ (congrArg BootDiagResult.phaseFlags isolated.same)

end MsxPulse.Firmware.Captures
