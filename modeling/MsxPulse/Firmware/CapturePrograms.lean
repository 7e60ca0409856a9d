import MsxPulse.Firmware.BootCapture
import MsxPulse.Library.Pio.Watch
import MsxPulse.Library.Wave

/-!
# The capture programs (boot_detect.pio, txn_capture.pio)

Each program pushes a snapshot of GP0-31 for every cycle of one control line. The
two boot captures sample a fixed time after the line has fallen, the read capture
one clock after it has risen.
-/

namespace MsxPulse.Firmware

open Library Library.Pio
open BootCapture (rawBitRd rawBitMreq rawBitIorq)

/-- `BD_SAMPLE_DELAY` -/
def bdSampleDelay : Nat := 8

/-- The program both boot captures run, on the line that starts their cycles. -/
def gatedCapture (gate : Nat) : Program where
  code :=
    [ ⟨.wait false gate, none, 0⟩
    , ⟨.nop, none, bdSampleDelay⟩
    , ⟨.input .pins 32, none, 0⟩
    , ⟨.wait true gate, none, 0⟩ ]
  wrapTarget := 0
  wrap := 3
  jmpPin := 0
  inBase := 0
  autopush := true
  outBase := 0
  setBase := 0
  setCount := 0
  sideBase := 0

/-- `bd_mem_capture` -/
def bdMemCapture : Program := gatedCapture rawBitMreq

/-- `bd_io_capture` -/
def bdIoCapture : Program := gatedCapture rawBitIorq

/-- `txn_read_capture` -/
def txnReadCapture : Program where
  code :=
    [ ⟨.wait false rawBitRd, none, 0⟩
    , ⟨.wait true rawBitRd, none, 0⟩
    , ⟨.input .pins 32, none, 0⟩ ]
  wrapTarget := 0
  wrap := 2
  jmpPin := 0
  inBase := 0
  autopush := true
  outBase := 0
  setBase := 0
  setCount := 0
  sideBase := 0

/-- Where `pio_sm_init` and the `jmp` of a reset put a capture. -/
def captureStart : Position := ⟨0, 0⟩

/-- One GPIO over time. -/
def pinLine (pins : Nat → U64) (gpio : Nat) : Wave.Line := fun n => (pins n).getLsbD gpio

section Gated

variable (gate : Nat)

theorem gatedCapture_watcher : (gatedCapture gate).Watcher where
  autopush := rfl
  code := by simp [gatedCapture, Op.Watches]

/-- The position this many clocks after the line has fallen. -/
def gatedStage : Nat → Position
  | 0 => captureStart
  | 1 => ⟨1, 0⟩
  | d + 2 => if d ≤ bdSampleDelay then ⟨2, bdSampleDelay - d⟩ else ⟨3, 0⟩

/-- Clocks from the fall of the line to the sample. -/
def bdSampleClock : Nat := bdSampleDelay + 2

theorem gatedStage_sampling (d : Nat) :
    (gatedCapture gate).Sampling (gatedStage d) ↔ d = bdSampleClock := by
  match d with
  | 0 => simp [Program.Sampling, gatedStage, gatedCapture, captureStart, bdSampleClock]
  | 1 => simp [Program.Sampling, gatedStage, gatedCapture, bdSampleClock, bdSampleDelay]
  | d + 2 =>
    by_cases settling : d ≤ bdSampleDelay
    · rw [gatedStage, if_pos settling]
      simp [Program.Sampling, gatedCapture, bdSampleClock]
      omega
    · rw [gatedStage, if_neg settling]
      simp [Program.Sampling, gatedCapture, bdSampleClock]
      omega

variable (gpio : U64)

theorem gated_move_waiting :
    (gatedCapture gate).move gpio captureStart =
      if gpio.getLsbD gate then captureStart else gatedStage 1 := by
  cases level : gpio.getLsbD gate <;>
    simp [Program.move, Program.follow, Program.after, gatedCapture, captureStart, gatedStage,
      level]

/-- Up to the sample, the levels do not matter. -/
theorem gated_move_settling {d : Nat} (begun : 1 ≤ d) (early : d ≤ bdSampleClock) :
    (gatedCapture gate).move gpio (gatedStage d) = gatedStage (d + 1) := by
  match d with
  | 0 => exact absurd begun (Nat.not_succ_le_zero 0)
  | 1 => simp [Program.move, Program.follow, Program.after, gatedCapture, gatedStage]
  | d + 2 =>
    have settling : d ≤ bdSampleDelay := Nat.le_of_add_le_add_right early
    rw [gatedStage, if_pos settling, gatedStage]
    by_cases last : d = bdSampleDelay
    · subst last
      simp [Program.move, Program.follow, Program.after, gatedCapture]
    · have more : d + 1 ≤ bdSampleDelay := Nat.lt_of_le_of_ne settling last
      have left : bdSampleDelay - d ≠ 0 := Nat.sub_ne_zero_of_lt more
      rw [if_pos more, Program.move, if_neg left]
      rfl

theorem gated_move_sampled {d : Nat} (late : bdSampleClock < d) :
    (gatedCapture gate).move gpio (gatedStage d) =
      if gpio.getLsbD gate then captureStart else gatedStage (d + 1) := by
  have over_ : ∀ e, bdSampleClock < e → gatedStage e = ⟨3, 0⟩ := by
    intro e late
    match e with
    | e + 2 => rw [gatedStage, if_neg (Nat.not_le.mpr (Nat.lt_of_add_lt_add_right late))]
  rw [over_ d late, over_ (d + 1) (Nat.lt_succ_of_lt late)]
  cases level : gpio.getLsbD gate <;>
    simp [Program.move, Program.follow, Program.after, gatedCapture, captureStart, level]

variable {gate} {pins : Nat → U64}

/-- Where a capture is before clock `n`: done with every fall so far and waiting for
the next, or this far past the fall at `f`. -/
inductive GatedAt (gate : Nat) (pins : Nat → U64) (n : Nat) : Position → Prop where
  | waiting (before : n = 0 ∨ pinLine pins gate (n - 1) = true)
      (done : ∀ f < n, Wave.Falls (pinLine pins gate) f → f + bdSampleClock + 1 < n) :
      GatedAt gate pins n captureStart
  | past (f : Nat) (falls : Wave.Falls (pinLine pins gate) f) (later : f < n)
      (low : n ≤ f + bdSampleClock + 1 ∨ Wave.LowFrom (pinLine pins gate) f n) :
      GatedAt gate pins n (gatedStage (n - f))

variable (steady : Wave.HighFor (pinLine pins gate) (bdSampleClock + 2))
include steady

theorem GatedAt.step {n : Nat} {pos : Position} (at_ : GatedAt gate pins n pos) :
    GatedAt gate pins (n + 1) ((gatedCapture gate).move (pins n) pos) := by
  cases at_ with
  | waiting before done =>
    rw [gated_move_waiting]
    cases level : (pins n).getLsbD gate with
    | true =>
      refine .waiting (.inr level) ?_
      intro f within falls
      rcases Nat.lt_succ_iff_lt_or_eq.mp within with earlier | rfl
      · exact Nat.lt_succ_of_lt (done f earlier falls)
      · exact Wave.clash level falls.1
    | false =>
      have past : GatedAt gate pins (n + 1) (gatedStage (n + 1 - n)) :=
        .past n ⟨level, before⟩ (Nat.lt_succ_self n) (.inl (by omega))
      rwa [Nat.add_sub_cancel_left] at past
  | past f falls later low =>
    have next : n + 1 - f = n - f + 1 := Nat.succ_sub (Nat.le_of_lt later)
    by_cases early : n - f ≤ bdSampleClock
    · rw [gated_move_settling gate (pins n) (Nat.le_sub_of_add_le' later) early, ← next]
      exact .past f falls (Nat.lt_succ_of_lt later) (.inl (by omega))
    · rw [gated_move_sampled gate (pins n) (Nat.lt_of_not_le early)]
      cases level : (pins n).getLsbD gate with
      | true =>
        refine .waiting (.inr level) ?_
        intro g within falls'
        rcases Nat.lt_trichotomy g f with earlier | rfl | again
        · have apart := falls'.apart steady falls earlier
          omega
        · omega
        · have apart := falls.apart steady falls' again
          rcases Nat.lt_succ_iff_lt_or_eq.mp within with inside | rfl
          · rcases low with near | low
            · omega
            · have same := low.first falls' (Nat.le_of_lt again) inside
              omega
          · exact Wave.clash level falls'.1
      | false =>
        rw [if_neg nofun, ← next]
        refine .past f falls (Nat.lt_succ_of_lt later) (.inr ⟨falls, ?_⟩)
        intro j since before
        cases high : pinLine pins gate j with
        | false => rfl
        | true =>
          -- the line has risen since `f`, and stayed high until now
          exfalso
          rcases low with near | low
          · obtain ⟨r, after, until_, rises⟩ := Wave.exists_rise since falls.1 high
            have still := steady r rises (n - r) (by omega)
            rw [Nat.add_sub_cancel' (by omega)] at still
            exact Wave.clash still level
          · rcases Nat.lt_succ_iff_lt_or_eq.mp before with earlier | rfl
            · exact Wave.clash high (low.2 j since earlier)
            · exact Wave.clash high level

theorem gatedAt (n : Nat) :
    GatedAt gate pins n ((gatedCapture gate).positionAt pins captureStart n) := by
  induction n with
  | zero => exact .waiting (.inl rfl) fun f before => absurd before (Nat.not_lt_zero f)
  | succ n ih => exact ih.step steady

/-- With high phases longer than its blind time, a capture samples once for each
fall of its line, `bdSampleClock` clocks later. -/
theorem gatedCapture_samplesAt :
    (gatedCapture gate).SamplesAt pins captureStart fun n =>
      bdSampleClock ≤ n ∧ Wave.Falls (pinLine pins gate) (n - bdSampleClock) := by
  intro n
  have at_ := gatedAt steady n
  generalize (gatedCapture gate).positionAt pins captureStart n = pos at at_
  cases at_ with
  | waiting before done =>
    have quiet : ¬ (gatedCapture gate).Sampling captureStart := fun here =>
      absurd ((gatedStage_sampling gate 0).mp here) (by decide)
    refine iff_of_false quiet ?_
    rintro ⟨long, falls⟩
    have settled := done _ (Nat.sub_lt (Nat.lt_of_lt_of_le (by decide) long) (by decide)) falls
    omega
  | past f falls later low =>
    rw [gatedStage_sampling]
    constructor
    · intro due
      have start : n - bdSampleClock = f := by omega
      exact ⟨by omega, start ▸ falls⟩
    · rintro ⟨long, falls'⟩
      rcases Nat.lt_trichotomy (n - bdSampleClock) f with earlier | same | again
      · have apart := falls'.apart steady falls earlier
        omega
      · omega
      · have apart := falls.apart steady falls' again
        rcases low with near | low
        · omega
        · have before : n - bdSampleClock < n := Nat.sub_lt (by omega) (by decide)
          have same := low.first falls' (Nat.le_of_lt again) before
          omega

end Gated

/-! ## The read capture -/

theorem txnReadCapture_watcher : txnReadCapture.Watcher where
  autopush := rfl
  code := by simp [txnReadCapture, Op.Watches]

section Reads

variable {pins : Nat → U64}

/-- Where the read capture is before clock `n`, as far as /RD tells. -/
inductive TxnAt (pins : Nat → U64) (n : Nat) : Position → Prop where
  | idle (before : n = 0 ∨ pinLine pins rawBitRd (n - 1) = true)
      (sampled : 0 < n → ¬ Wave.Rises (pinLine pins rawBitRd) (n - 1)) : TxnAt pins n ⟨0, 0⟩
  | reading (begun : 0 < n) (low : pinLine pins rawBitRd (n - 1) = false) : TxnAt pins n ⟨1, 0⟩
  | due (begun : 0 < n) (rises : Wave.Rises (pinLine pins rawBitRd) (n - 1)) : TxnAt pins n ⟨2, 0⟩

variable (steady : Wave.HighFor (pinLine pins rawBitRd) 2)
include steady

theorem TxnAt.step {n : Nat} {pos : Position} (at_ : TxnAt pins n pos) :
    TxnAt pins (n + 1) (txnReadCapture.move (pins n) pos) := by
  cases at_ with
  | idle before sampled =>
    cases level : (pins n).getLsbD rawBitRd with
    | true =>
      have stays : txnReadCapture.move (pins n) ⟨0, 0⟩ = ⟨0, 0⟩ := by
        simp [Program.move, Program.follow, txnReadCapture, level]
      rw [stays]
      refine .idle (.inr level) fun _ rises => ?_
      rcases before with rfl | high
      · exact absurd rises.1 (Nat.lt_irrefl 0)
      · exact Wave.clash high rises.2.1
    | false =>
      have begins : txnReadCapture.move (pins n) ⟨0, 0⟩ = ⟨1, 0⟩ := by
        simp [Program.move, Program.follow, Program.after, txnReadCapture, level]
      rw [begins]
      exact .reading (Nat.succ_pos n) level
  | reading begun low =>
    cases level : (pins n).getLsbD rawBitRd with
    | true =>
      have ends : txnReadCapture.move (pins n) ⟨1, 0⟩ = ⟨2, 0⟩ := by
        simp [Program.move, Program.follow, Program.after, txnReadCapture, level]
      rw [ends]
      exact .due (Nat.succ_pos n) ⟨begun, low, level⟩
    | false =>
      have stays : txnReadCapture.move (pins n) ⟨1, 0⟩ = ⟨1, 0⟩ := by
        simp [Program.move, Program.follow, txnReadCapture, level]
      rw [stays]
      exact .reading (Nat.succ_pos n) level
  | due begun rises =>
    have back : txnReadCapture.move (pins n) ⟨2, 0⟩ = ⟨0, 0⟩ := by
      simp [Program.move, Program.follow, Program.after, txnReadCapture]
    have high : pinLine pins rawBitRd n = true := by
      have still := steady _ rises 1 (by decide)
      rwa [Nat.sub_add_cancel begun] at still
    rw [back]
    exact .idle (.inr high) fun _ again => Wave.clash rises.2.2 again.2.1

theorem txnAt (n : Nat) : TxnAt pins n (txnReadCapture.positionAt pins captureStart n) := by
  induction n with
  | zero => exact .idle (.inl rfl) fun begun => absurd begun (Nat.lt_irrefl 0)
  | succ n ih => exact ih.step steady

/-- With high phases of two clocks, the read capture samples once for each rise of
/RD, one clock later. -/
theorem txnReadCapture_samplesAt :
    txnReadCapture.SamplesAt pins captureStart fun n =>
      1 ≤ n ∧ Wave.Rises (pinLine pins rawBitRd) (n - 1) := by
  intro n
  have at_ := txnAt steady n
  generalize txnReadCapture.positionAt pins captureStart n = pos at at_
  cases at_ with
  | idle before sampled =>
    have quiet : ¬ txnReadCapture.Sampling ⟨0, 0⟩ := by simp [Program.Sampling, txnReadCapture]
    exact iff_of_false quiet fun due => sampled due.1 due.2
  | reading begun low =>
    have quiet : ¬ txnReadCapture.Sampling ⟨1, 0⟩ := by simp [Program.Sampling, txnReadCapture]
    exact iff_of_false quiet fun due => Wave.clash due.2.2.2 low
  | due begun rises =>
    have now : txnReadCapture.Sampling ⟨2, 0⟩ := by simp [Program.Sampling, txnReadCapture]
    exact iff_of_true now ⟨begun, rises⟩

end Reads

/-! ## The words of the bus cycles -/

/-- The levels from a clock on. -/
def levelsFrom (pins : Nat → U64) (start : Nat) : Nat → U64 := fun n => pins (start + n)

/-- What a program that is armed at a clock samples in its first `n` clocks. -/
def samplesFrom (p : Program) (pins : Nat → U64) (armedAt n : Nat) : List U32 :=
  p.sampled (levelsFrom pins armedAt) captureStart n

/-- GP0-31 at a clock. -/
def word (pins : Nat → U64) (n : Nat) : U32 := (pins n).setWidth 32

/-- The words of the cycles that a line's falls begin, in `n` clocks from `armedAt` on. -/
def fallWords (gate : Nat) (pins : Nat → U64) (armedAt n : Nat) : List U32 :=
  ((List.range n).filter fun k => bdSampleClock ≤ k ∧
    Wave.Falls (Wave.from_ (pinLine pins gate) armedAt) (k - bdSampleClock)).map
      fun k => word pins (armedAt + k)

/-- The words of the reads that rises of /RD end, in `n` clocks from `armedAt` on. -/
def riseWords (pins : Nat → U64) (armedAt n : Nat) : List U32 :=
  ((List.range n).filter fun k => 1 ≤ k ∧
    Wave.Rises (Wave.from_ (pinLine pins rawBitRd) armedAt) (k - 1)).map
      fun k => word pins (armedAt + k)

theorem gatedCapture_words {gate : Nat} {pins : Nat → U64}
    (steady : Wave.HighFor (pinLine pins gate) (bdSampleClock + 2)) :
    samplesFrom (gatedCapture gate) pins = fallWords gate pins := by
  funext armedAt n
  have at_ : (gatedCapture gate).SamplesAt (levelsFrom pins armedAt) captureStart _ :=
    gatedCapture_samplesAt (steady.from_ armedAt)
  exact at_.sampled n

theorem txnReadCapture_words {pins : Nat → U64}
    (steady : Wave.HighFor (pinLine pins rawBitRd) 2) :
    samplesFrom txnReadCapture pins = riseWords pins := by
  funext armedAt n
  have at_ : txnReadCapture.SamplesAt (levelsFrom pins armedAt) captureStart _ :=
    txnReadCapture_samplesAt (steady.from_ armedAt)
  exact at_.sampled n

end MsxPulse.Firmware
