import MsxPulse.Firmware.BusIntegrity.Batch
import MsxPulse.Firmware.CaptureLane
import MsxPulse.Firmware.Captures.Twin

/-!
# A diagnostic round on the pins

From the first re-arm of a round on: the levels of the pins are given at every
clock, the state machines sample them, the channels store the samples, core 1
drains the rings and core 0 ticks, in any order. Only the cart-read log is still
filled from outside. The records tell at the end what a frozen result rests on.

RESET and the button combination end with `cart_serve_reset_pipeline`. The server is never
set up in this configuration, so the two channel numbers are zeroed statics and channel 0,
which is the log's, is left taking words from the FIFO that reads are captured through.
-/

namespace MsxPulse.Firmware

open Library Library.Pio BootDiag

/-- The handles of the captures once their channels are claimed, as they are in a round. -/
structure CaptureHandles where
  boot : BootCapture.Hardware
  txn : TxnCapture.Hardware
  bootClaimed : ¬ boot.memDma < 0
  txnClaimed : ¬ txn.dma < 0

structure Lanes where
  mem : Lane
  io : Lane
  txn : Lane

inductive WiredEvent where
  | clock
  | memDma
  | ioDma
  | txnDma
  /-- Channel 0 takes a word of a read. -/
  | strayDma
  | cartRead (word : U32)
  | tick (nowMs : U32) (snap : BusProbeSnapshot)
  | core1 (nowUs : U64)

structure Wired where
  now : Nat
  lanes : Lanes
  caps : Captures
  /-- `cart_serve_reset_pipeline` has aimed channel 0 at the FIFO of `txn_read_capture`, and
  nothing has aborted it since. -/
  stray : Bool
  /-- The log words that drains have looked at, for the observer. -/
  examined : List U32

namespace Wired

/-- The word of a read as the analyzer is fed it. -/
def readOf (raw : U32) : BusRead :=
  ⟨(raw &&& 0xFFFF#32).setWidth 16, ((raw >>> 16) &&& 0xFF#32).setWidth 8⟩

/-- What a call of `boot_diag_tick` does to the state machines. -/
def perform (hw : CaptureHandles) (now : Nat) (first : Bool) (l : Lanes) : DiagCall → Lanes
  | .bootCaptureReset =>
    let mem := smOps .pio0 1 hw.boot.reset
    let io := smOps .pio0 2 hw.boot.reset
    if first then
      { l with mem := l.mem.arm hw.boot.memOff mem now, io := l.io.arm hw.boot.ioOff io now }
    else
      { l with mem := l.mem.rearm hw.boot.memOff mem now, io := l.io.rearm hw.boot.ioOff io now }
  | .txnCaptureReset =>
    let txn := smOps .pio1 0 hw.txn.reset
    if first then { l with txn := l.txn.arm hw.txn.off txn now }
    else { l with txn := l.txn.rearm hw.txn.off txn now }
  | .bootCaptureStop =>
    { l with
      mem := l.mem.stop hw.boot.memOff (smOps .pio0 1 hw.boot.stop)
      io := l.io.stop hw.boot.ioOff (smOps .pio0 2 hw.boot.stop) }
  | .txnCaptureStop => { l with txn := l.txn.stop hw.txn.off (smOps .pio1 0 hw.txn.stop) }
  | _ => l

def tick (hw : CaptureHandles) (s : Wired) (nowMs : U32) (snap : BusProbeSnapshot) : Wired :=
  let calls := (s.caps.diag.tick snap s.caps.detect nowMs).2
  { s with
    lanes := calls.foldl (perform hw s.now (decide s.caps.AtRearm)) s.lanes
    caps := s.caps.tick nowMs snap
    examined := if s.caps.AtRearm then [] else s.examined }

/-- What core 1's next step tells the observer. -/
def watch (s : Wired) : Lanes :=
  match s.caps.core1 with
  | .head =>
    if s.caps.diag.captureActive then { s.lanes with mem := s.lanes.mem.beginDrain } else s.lanes
  | .mem total rd =>
    if rd = total then { s.lanes with io := s.lanes.io.beginDrain }
    else { s.lanes with mem := s.lanes.mem.feed (s.caps.mem.dma.read rd) }
  | .io total rd =>
    if rd = total then s.lanes
    else { s.lanes with io := s.lanes.io.feed (s.caps.io.dma.read rd) }
  | .alog =>
    if s.caps.txn.claimed then { s.lanes with txn := s.lanes.txn.beginDrain } else s.lanes
  | .txn total rd =>
    if rd = total then s.lanes
    else { s.lanes with txn := s.lanes.txn.feed (s.caps.txn.dma.read rd) }

/-- The log words that core 1's next step looks at. -/
def examines (s : Wired) : List U32 :=
  match s.caps.core1 with
  | .alog => s.caps.alog.words.drop s.caps.alogRd.toNat
  | _ => []

def core1Step (s : Wired) (nowUs : U64) : Wired :=
  { s with
    lanes := s.watch
    caps := s.caps.core1Step nowUs
    examined := s.examined ++ s.examines }

def clock (pins : Nat → U64) (s : Wired) : Wired :=
  { s with
    now := s.now + 1
    lanes :=
      { mem := s.lanes.mem.clock bdMemCapture (pins s.now)
        io := s.lanes.io.clock bdIoCapture (pins s.now)
        txn := s.lanes.txn.clock txnReadCapture (pins s.now) } }

def memDma (s : Wired) : Wired :=
  match s.lanes.mem.sm.rx with
  | word :: rest =>
    { s with
      lanes := { s.lanes with mem := s.lanes.mem.store word rest }
      caps := { s.caps with mem := s.caps.mem.store word } }
  | [] => s

def ioDma (s : Wired) : Wired :=
  match s.lanes.io.sm.rx with
  | word :: rest =>
    { s with
      lanes := { s.lanes with io := s.lanes.io.store word rest }
      caps := { s.caps with io := s.caps.io.store word } }
  | [] => s

def txnDma (s : Wired) : Wired :=
  match s.lanes.txn.sm.rx with
  | word :: rest =>
    { s with
      lanes := { s.lanes with txn := s.lanes.txn.store word rest }
      caps := { s.caps with txn := s.caps.txn.store word } }
  | [] => s

/-- The word is gone. -/
def strayDma (s : Wired) : Wired :=
  match s.lanes.txn.sm.rx with
  | _ :: rest =>
    { s with
      lanes := { s.lanes with txn := { s.lanes.txn with sm := { s.lanes.txn.sm with rx := rest } } } }
  | [] => s

def machine (pins : Nat → U64) (hw : CaptureHandles) : Machine Wired WiredEvent Empty where
  step
    | s, .clock => (s.clock pins, [])
    | s, .memDma => (s.memDma, [])
    | s, .ioDma => (s.ioDma, [])
    | s, .txnDma => (s.txnDma, [])
    | s, .strayDma => (s.strayDma, [])
    | s, .cartRead word => ({ s with caps := { s.caps with alog := s.caps.alog.store word } }, [])
    | s, .tick nowMs snap => (s.tick hw nowMs snap, [])
    | s, .core1 nowUs => (s.core1Step nowUs, [])

/-- The FIFO of a running state machine has room for a sample that is due. -/
def Flows (p : Program) (l : Lane) : Prop := l.sm.enabled = true → p.Room l.sm

/-- Fewer than a ring of words since the last sample. -/
def Near (l : Lane) : Prop := l.pass.written.length < l.pass.sampled + 4096

/-- The next word to read is still in the ring. -/
def Held (l : Lane) : Prop := l.pass.written.length ≤ l.pass.passed.length + 4096

instance (p : Program) (l : Lane) : Decidable (Flows p l) := inferInstanceAs (Decidable (_ → _))
instance (l : Lane) : Decidable (Near l) := inferInstanceAs (Decidable (_ < _))
instance (l : Lane) : Decidable (Held l) := inferInstanceAs (Decidable (_ ≤ _))

/-- Core 1 is in time with its next step. -/
def InTime (s : Wired) : Prop :=
  match s.caps.core1 with
  | .head => s.caps.diag.captureActive = true → Near s.lanes.mem
  | .mem total rd => if rd = total then Near s.lanes.io else Held s.lanes.mem
  | .io total rd => rd ≠ total → Held s.lanes.io
  | .alog => s.caps.txn.claimed = true → Near s.lanes.txn
  | .txn total rd => rd ≠ total → Held s.lanes.txn

instance : ∀ s : Wired, Decidable s.InTime
  | ⟨_, _, ⟨_, _, _, _, _, _, _, _, .head⟩, _, _⟩ => inferInstanceAs (Decidable (_ → _))
  | ⟨_, _, ⟨_, _, _, _, _, _, _, _, .mem _ _⟩, _, _⟩ => inferInstanceAs (Decidable (ite _ _ _))
  | ⟨_, _, ⟨_, _, _, _, _, _, _, _, .io _ _⟩, _, _⟩ => inferInstanceAs (Decidable (_ → _))
  | ⟨_, _, ⟨_, _, _, _, _, _, _, _, .alog⟩, _, _⟩ => inferInstanceAs (Decidable (_ → _))
  | ⟨_, _, ⟨_, _, _, _, _, _, _, _, .txn _ _⟩, _, _⟩ => inferInstanceAs (Decidable (_ → _))

/-- No FIFO overflows, channels move words while they run, and core 1 keeps up. -/
def Allowed (s : Wired) : WiredEvent → Prop
  | .clock => Flows bdMemCapture s.lanes.mem ∧ Flows bdIoCapture s.lanes.io ∧
      Flows txnReadCapture s.lanes.txn
  | .memDma => s.caps.mem.running = true
  | .ioDma => s.caps.io.running = true
  | .txnDma => s.caps.txn.running = true
  | .strayDma => s.stray = true
  | .cartRead word => s.caps.Possible (.cartRead word)
  | .tick nowMs snap => s.caps.Possible (.tick nowMs snap)
  | .core1 _ => s.InTime

instance (s : Wired) : ∀ e : WiredEvent, Decidable (s.Allowed e)
  | .clock => inferInstanceAs (Decidable (_ ∧ _ ∧ _))
  | .memDma => inferInstanceAs (Decidable (_ = true))
  | .ioDma => inferInstanceAs (Decidable (_ = true))
  | .txnDma => inferInstanceAs (Decidable (_ = true))
  | .strayDma => inferInstanceAs (Decidable (_ = true))
  | .cartRead word => inferInstanceAs (Decidable (s.caps.Possible (.cartRead word)))
  | .tick nowMs snap => inferInstanceAs (Decidable (s.caps.Possible (.tick nowMs snap)))
  | .core1 _ => inferInstanceAs (Decidable s.InTime)

/-- The event of the evidence that an event on the wires is: a channel stores the
oldest word of its FIFO. -/
def projected (s : Wired) : WiredEvent → Option CaptureEvent
  | .clock => none
  | .memDma => s.lanes.mem.sm.rx.head?.map .memWord
  | .ioDma => s.lanes.io.sm.rx.head?.map .ioWord
  | .txnDma => s.lanes.txn.sm.rx.head?.map .txnWord
  | .strayDma => none
  | .cartRead word => some (.cartRead word)
  | .tick nowMs snap => some (.tick nowMs snap)
  | .core1 nowUs => some (.core1 nowUs)

theorem step_caps (pins : Nat → U64) (hw : CaptureHandles) (s : Wired) (e : WiredEvent) :
    ((machine pins hw).step s e).1.caps =
      (s.projected e).elim s.caps fun e => (Captures.machine.step s.caps e).1 := by
  cases e with
  | clock => rfl
  | memDma =>
    show s.memDma.caps = _
    unfold memDma projected
    cases s.lanes.mem.sm.rx <;> rfl
  | ioDma =>
    show s.ioDma.caps = _
    unfold ioDma projected
    cases s.lanes.io.sm.rx <;> rfl
  | txnDma =>
    show s.txnDma.caps = _
    unfold txnDma projected
    cases s.lanes.txn.sm.rx <;> rfl
  | strayDma =>
    show s.strayDma.caps = _
    unfold strayDma projected
    cases s.lanes.txn.sm.rx <;> rfl
  | cartRead word => rfl
  | tick nowMs snap => rfl
  | core1 nowUs => rfl

/-- Nothing in a round aims channel 0 anew or aborts it. -/
theorem step_stray (pins : Nat → U64) (hw : CaptureHandles) (s : Wired) (e : WiredEvent) :
    ((machine pins hw).step s e).1.stray = s.stray := by
  cases e with
  | memDma =>
    show s.memDma.stray = _
    unfold memDma
    split <;> rfl
  | ioDma =>
    show s.ioDma.stray = _
    unfold ioDma
    split <;> rfl
  | txnDma =>
    show s.txnDma.stray = _
    unfold txnDma
    split <;> rfl
  | strayDma =>
    show s.strayDma.stray = _
    unfold strayDma
    split <;> rfl
  | clock | cartRead | tick | core1 => rfl

theorem Allowed.possible {s : Wired} {e : WiredEvent} (allowed : s.Allowed e) :
    ∀ e' ∈ s.projected e, s.caps.Possible e' := by
  intro e' member
  cases e with
  | clock => simp [projected] at member
  | memDma =>
    obtain ⟨word, -, rfl⟩ := Option.map_eq_some_iff.mp member
    exact allowed
  | ioDma =>
    obtain ⟨word, -, rfl⟩ := Option.map_eq_some_iff.mp member
    exact allowed
  | txnDma =>
    obtain ⟨word, -, rfl⟩ := Option.map_eq_some_iff.mp member
    exact allowed
  | strayDma => simp [projected] at member
  | cartRead word =>
    obtain rfl := Option.some.inj member
    exact allowed
  | tick nowMs snap =>
    obtain rfl := Option.some.inj member
    exact allowed
  | core1 nowUs =>
    obtain rfl := Option.some.inj member
    trivial

theorem sound_step {pins : Nat → U64} {hw : CaptureHandles} {s : Wired} {e : WiredEvent}
    (sound : s.caps.Sound) (allowed : s.Allowed e) :
    ((machine pins hw).step s e).1.caps.Sound := by
  have possible := allowed.possible
  rw [step_caps]
  cases event : s.projected e with
  | none => exact sound
  | some e' => exact sound.step (possible e' event)

/-! ## Before the round -/

/-- Whether channel 0 is left aimed at the FIFO. EMU OFF aborts it, and so does ALOG RESET once
`alog_init` has claimed it. -/
def straying (s : Captures) (stray : Bool) : CaptureEvent → Bool
  | .combo => true
  | .command cmd =>
    match cmd.type with
    | .reset => true
    | .emuOff => false
    | .alogReset => stray && !s.alog.claimed
    | _ => stray
  | _ => stray

def strayAfter (s : Captures) (stray : Bool) : List CaptureEvent → Bool
  | [] => stray
  | e :: past => strayAfter (Captures.machine.step s e).1 (straying s stray e) past

/-- Some history of the firmware ends in this state of the evidence and of channel 0. -/
def Reached (s : Wired) : Prop :=
  ∃ (memory : CaptureMemory) (past : List CaptureEvent),
    Captures.machine.Along Captures.Possible (Captures.initial memory) past ∧
      s.caps = Captures.machine.final (Captures.initial memory) past ∧
      s.stray = strayAfter (Captures.initial memory) false past

theorem Reached.caps {s : Wired} (reached : s.Reached) : s.caps.Reached := by
  obtain ⟨memory, past, possible, ends, -⟩ := reached
  exact ⟨memory, past, possible, ends⟩

end Wired

end MsxPulse.Firmware
