import MsxPulse.Firmware.BootDiag.Round
import MsxPulse.Firmware.Captures

/-!
# What every history leaves at a round's first re-arm

Whatever has happened before, the accumulators are clean, core 1 is at the head
of its loop and the ring channels are claimed when a round arms its captures for
the first time. Nothing is said of the cart-read log, because nothing holds.
-/

namespace MsxPulse.Firmware.Captures

open Library BootDiag

/-- The invariant of all histories. -/
structure Sound (s : Captures) : Prop where
  parked : s.diag.phase ≠ .capturing → s.diag.captureActive = false
  away : s.diag.phase ≠ .capturing → s.diag.phase ≠ .settle → s.core1 = .head
  running : s.diag.phase ≠ .idle → s.diag.phase ≠ .done →
    s.diag.request = false ∧ s.diag.inited = true ∧ s.diag.pass.toNat < 3
  fresh : s.AtRearm → s.diag.bi = .reset ∧ s.diag.anomAccum = 0#16 ∧ s.detect = .reset
  claimed : s.diag.inited = true →
    s.mem.claimed = true ∧ s.io.claimed = true ∧ s.txn.claimed = true
  log : s.alog.Positioned

theorem initial_sound (memory : CaptureMemory) : (initial memory).Sound where
  parked := fun _ => rfl
  away := fun _ _ => rfl
  running := fun idle => absurd rfl idle
  fresh := fun rearm => absurd rearm.1 (by simp [initial, BootDiag.initial])
  claimed := fun inited => absurd inited Bool.false_ne_true
  log := AlogBuffer.initial_positioned memory.alog

section Frames

variable (s : Captures)

@[simp] theorem bootCaptureReset_diag : s.bootCaptureReset.diag = s.diag := by
  unfold bootCaptureReset; split <;> rfl
@[simp] theorem bootCaptureReset_detect : s.bootCaptureReset.detect = s.detect := by
  unfold bootCaptureReset; split <;> rfl
@[simp] theorem bootCaptureReset_core1 : s.bootCaptureReset.core1 = s.core1 := by
  unfold bootCaptureReset; split <;> rfl
@[simp] theorem bootCaptureReset_alog : s.bootCaptureReset.alog = s.alog := by
  unfold bootCaptureReset; split <;> rfl
@[simp] theorem bootCaptureReset_txn : s.bootCaptureReset.txn = s.txn := by
  unfold bootCaptureReset; split <;> rfl
@[simp] theorem bootCaptureReset_mem_claimed :
    s.bootCaptureReset.mem.claimed = s.mem.claimed := by
  unfold bootCaptureReset; split <;> rfl
@[simp] theorem bootCaptureReset_io_claimed : s.bootCaptureReset.io.claimed = s.io.claimed := by
  unfold bootCaptureReset; split <;> rfl

/-- Of the orchestrator's statics, core 1 touches the analyzer only. -/
theorem core1Step_diag (nowUs : U64) :
    (s.core1Step nowUs).diag = { s.diag with bi := (s.core1Step nowUs).diag.bi } := by
  unfold core1Step beginMem turnMem turnIo turnAlog turnTxn
  split <;> (try dsimp only) <;> split <;> rfl

theorem core1Step_alog (nowUs : U64) : (s.core1Step nowUs).alog = s.alog := by
  unfold core1Step beginMem turnMem turnIo turnAlog turnTxn
  split <;> (try dsimp only) <;> split <;> rfl

theorem core1Step_claimed (nowUs : U64) :
    (s.core1Step nowUs).mem.claimed = s.mem.claimed ∧
      (s.core1Step nowUs).io.claimed = s.io.claimed ∧
      (s.core1Step nowUs).txn.claimed = s.txn.claimed := by
  unfold core1Step beginMem turnMem turnIo turnAlog turnTxn
  split <;> (try dsimp only) <;> split <;> exact ⟨rfl, rfl, rfl⟩

end Frames

section Calls

variable {s : Captures} (d : BootDiag)

theorem perform_rearm (mem : s.mem.claimed = true) (txn : s.txn.claimed = true) :
    [DiagCall.bootCaptureReset, .txnCaptureReset, .pulseResetPassive].foldl perform
        { s with diag := d } =
      { s with
        diag := d, mem := s.mem.reset, io := s.io.reset, txn := s.txn.reset
        watchdog := .reset, alogRd := 0#16 } := by
  simp [perform, bootCaptureReset, txnCaptureReset, mem, txn]

theorem perform_stop (txn : s.txn.claimed = true) :
    [DiagCall.bootCaptureStop, .txnCaptureStop].foldl perform { s with diag := d } =
      { s with diag := d, mem := s.mem.stop, io := s.io.stop, txn := s.txn.stop } := by
  simp [perform, txnCaptureStop, txn]

end Calls

section Steps

variable {s : Captures}

theorem Sound.start (sound : s.Sound) : Sound { s with diag := s.diag.start } := by
  have same := start_eq s.diag
  have quiet (idle : s.diag.phase ≠ .idle) (done : s.diag.phase ≠ .done) :
      s.diag.start.request = s.diag.request := by rw [start_of_running idle done]
  constructor
  · show s.diag.start.phase ≠ _ → s.diag.start.captureActive = _
    rw [same]
    exact sound.parked
  · show s.diag.start.phase ≠ _ → s.diag.start.phase ≠ _ → _
    rw [start_phase]
    exact sound.away
  · show s.diag.start.phase ≠ _ → s.diag.start.phase ≠ _ → s.diag.start.request = false ∧
      s.diag.start.inited = _ ∧ s.diag.start.pass.toNat < _
    rw [same]
    intro idle done
    exact ⟨(quiet idle done).trans (sound.running idle done).1, (sound.running idle done).2⟩
  · show s.diag.start.phase = _ ∧ s.diag.start.pass = _ → s.diag.start.bi = _ ∧
      s.diag.start.anomAccum = _ ∧ s.detect = _
    rw [same]
    exact sound.fresh
  · show s.diag.start.inited = _ → _
    rw [same]
    exact sound.claimed
  · exact sound.log

theorem Sound.tick (sound : s.Sound) {nowMs : U32} {snap : BusProbeSnapshot}
    (settled : s.diag.phase = .settle → reached nowMs s.diag.deadlineMs = true →
      s.core1 = .head) : (s.tick nowMs snap).Sound := by
  have outcome := tick_outcome s.diag snap s.detect nowMs
  unfold Captures.tick
  generalize s.diag.tick snap s.detect nowMs = next at outcome
  cases outcome with
  | wait => exact sound
  | beginRound ready requested =>
    have capturing : s.diag.phase ≠ .capturing := by rcases ready with h | h <;> simp [h]
    have settle : s.diag.phase ≠ .settle := by rcases ready with h | h <;> simp [h]
    have off := sound.parked capturing
    have head := sound.away capturing settle
    cases inited : s.diag.inited with
    | true =>
      exact
        { parked := fun _ => off
          away := fun _ _ => head
          running := fun _ _ => ⟨rfl, rfl, Nat.succ_pos 2⟩
          fresh := fun _ => ⟨rfl, rfl, rfl⟩
          claimed := fun _ => sound.claimed inited
          log := sound.log }
    | false =>
      exact
        { parked := fun _ => off
          away := fun _ _ => head
          running := fun _ _ => ⟨rfl, rfl, Nat.succ_pos 2⟩
          fresh := fun _ => ⟨rfl, rfl, rfl⟩
          claimed := fun _ => ⟨rfl, rfl, rfl⟩
          log := AlogBuffer.init_positioned s.alog }
  | beginPass armed =>
    have active := sound.running (by simp [armed]) (by simp [armed])
    obtain ⟨mem, io, txn⟩ := sound.claimed active.2.1
    dsimp only
    rw [perform_rearm _ mem txn]
    exact
      { parked := fun capturing => absurd rfl capturing
        away := fun capturing => absurd rfl capturing
        running := fun _ _ => active
        fresh := fun rearm => nomatch rearm.1
        claimed := fun _ => ⟨mem, io, txn⟩
        log := sound.log }
  | endWindow capturing late =>
    have active := sound.running (by simp [capturing]) (by simp [capturing])
    obtain ⟨mem, io, txn⟩ := sound.claimed active.2.1
    dsimp only
    rw [perform_stop _ txn]
    exact
      { parked := fun _ => rfl
        away := fun _ settle => absurd rfl settle
        running := fun _ _ => active
        fresh := fun rearm => nomatch rearm.1
        claimed := fun _ => ⟨mem, io, txn⟩
        log := sound.log }
  | nextPass settle late incomplete remaining =>
    have active := sound.running (by simp [settle]) (by simp [settle])
    have head := settled settle late
    -- the pass counter is past zero, so this is not a first re-arm
    have later : s.diag.pass + 1#8 ≠ 0#8 := by
      have below := active.2.2
      intro zero
      have value := congrArg BitVec.toNat zero
      rw [BitVec.toNat_add] at value
      simp at value
      omega
    exact
      { parked := fun _ => sound.parked (by simp [settle])
        away := fun _ _ => head
        running := fun _ _ => ⟨active.1, active.2.1, BitVec.lt_def.mp remaining⟩
        fresh := fun rearm => absurd rearm.2 later
        claimed := sound.claimed
        log := sound.log }
  | finish settle late stops =>
    exact
      { parked := fun _ => sound.parked (by simp [settle])
        away := fun _ _ => settled settle late
        running := fun _ done => absurd rfl done
        fresh := fun rearm => nomatch rearm.1
        claimed := sound.claimed
        log := sound.log }

theorem Sound.core1Step (sound : s.Sound) (nowUs : U64) : (s.core1Step nowUs).Sound := by
  by_cases busy : s.diag.phase = .capturing ∨ s.diag.phase = .settle
  · have same := core1Step_diag s nowUs
    have claims := core1Step_claimed s nowUs
    constructor
    · rw [same]
      exact sound.parked
    · rw [same]
      intro capturing settle
      exact busy.elim (absurd · capturing) (absurd · settle)
    · rw [same]
      exact sound.running
    · intro rearm
      have phase := rearm.1
      rw [same] at phase
      exact absurd busy (by simp [show s.diag.phase = .passBegin from phase])
    · rw [same, claims.1, claims.2.1, claims.2.2]
      exact sound.claimed
    · rw [core1Step_alog]
      exact sound.log
  · rw [not_or] at busy
    have still : s.core1Step nowUs = s := by
      simp [Captures.core1Step, sound.away busy.1 busy.2, beginMem, sound.parked busy.1]
    rw [still]
    exact sound

theorem Sound.command (sound : s.Sound) (cmd : ParsedCmd) : (s.cmdDispatch cmd).Sound := by
  unfold cmdDispatch
  split
  · exact { sound with log := AlogBuffer.disableDrive_positioned s.alog }
  · exact
      { parked := by simpa [cmdReset] using sound.parked
        away := by simpa [cmdReset] using sound.away
        running := by simpa [cmdReset] using sound.running
        fresh := fun rearm => by
          have clean := sound.fresh (by simpa [cmdReset, AtRearm] using rearm)
          simp [cmdReset, clean]
        claimed := by simpa [cmdReset] using sound.claimed
        log := by simpa [cmdReset] using sound.log.reset.resetPipeline }
  · exact { sound with log := sound.log.reset }
  · exact sound.start
  · exact sound

theorem Sound.step (sound : s.Sound) {e : CaptureEvent} (possible : s.Possible e) :
    (machine.step s e).1.Sound := by
  cases e with
  | start => exact sound.start
  | tick nowMs snap => exact sound.tick possible
  | core1 nowUs => exact sound.core1Step nowUs
  | memWord word => exact { sound with }
  | ioWord word => exact { sound with }
  | txnWord word => exact { sound with }
  | cartRead word => exact { sound with log := sound.log.store possible word }
  | command cmd => exact sound.command cmd
  | combo => exact { sound with log := sound.log.reset.resetPipeline }

end Steps

theorem Reached.sound {s : Captures} (reached : s.Reached) : s.Sound := by
  obtain ⟨memory, past, possible, rfl⟩ := reached
  exact machine.final_invariant Possible Sound (fun _ _ sound h => sound.step h)
    (initial_sound memory) possible

end MsxPulse.Firmware.Captures
