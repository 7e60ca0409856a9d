import MsxPulse.Firmware.BootDiag.Round
import MsxPulse.Firmware.Chip

/-!
# Who owns the state machines and the DMA channels

A module acquires a state machine by `pio_sm_init` and a channel by claiming it.
Along a run the observer keeps what has been acquired by whom; an operation is in
order if its module has acquired the resource and no other module has.
-/

namespace MsxPulse.Firmware

open Library

inductive Resource where
  | sm (block : PioBlock) (sm : Nat)
  | channel (ch : Int)
  deriving DecidableEq

/-- Everything acquired so far, with the module that acquired it. -/
abbrev Acquired := List (FwModule × Resource)

namespace SdkCall

def resource? : SdkCall → Option Resource
  | .sm block n _ => some (.sm block n)
  | .dma ch _ => some (.channel ch)
  | _ => none

/-- The call by which a module makes a resource its own. -/
def acquires : SdkCall → Bool
  | .sm _ _ (.init _) => true
  | .dma _ .claim => true
  | _ => false

end SdkCall

namespace Call

/-- The call acts on its module's own resource, or on none. -/
def inOrder (owned : Acquired) (c : Call) : Bool :=
  match c.call.resource? with
  | none => true
  | some r =>
    owned.all (fun p => decide (p.2 = r → p.1 = c.caller)) &&
      (c.call.acquires || decide ((c.caller, r) ∈ owned))

def acquire (owned : Acquired) (c : Call) : Acquired :=
  match c.call.resource? with
  | none => owned
  | some r => if c.call.acquires then owned ++ [(c.caller, r)] else owned

end Call

/-- All calls are in order, each in the ownership its predecessors leave. -/
def allInOrder : Acquired → List Call → Bool
  | _, [] => true
  | owned, c :: calls => c.inOrder owned && allInOrder (c.acquire owned) calls

/-- The ownership that a list of calls leaves. -/
def acquireAll (owned : Acquired) (calls : List Call) : Acquired :=
  calls.foldl Call.acquire owned

theorem Call.acquire_of_not {owned : Acquired} {c : Call} (uses : c.call.acquires = false) :
    c.acquire owned = owned := by
  unfold Call.acquire
  split
  · rfl
  · rw [uses]
    rfl

/-- Calls that acquire nothing are in order one by one. -/
theorem allInOrder_of_not_acquires {owned : Acquired} {calls : List Call}
    (uses : calls.all (fun c => !c.call.acquires) = true) :
    acquireAll owned calls = owned ∧ allInOrder owned calls = calls.all (Call.inOrder owned) := by
  induction calls with
  | nil => exact ⟨rfl, rfl⟩
  | cons c calls ih =>
    rw [List.all_cons, Bool.and_eq_true, Bool.not_eq_true'] at uses
    obtain ⟨kept, inOrder⟩ := ih uses.2
    rw [acquireAll, List.foldl_cons, allInOrder, Call.acquire_of_not uses.1, List.all_cons, inOrder]
    exact ⟨kept, rfl⟩

namespace Chip

/-- The firmware with the observer's record of ownership. -/
structure Watched where
  chip : Chip
  owned : Acquired

namespace Watched

def initial (offset : PioProgram → Nat) (lutHigh : U32) : Watched :=
  ⟨.initial offset lutHigh, []⟩

def machine : Machine Watched ChipEvent Call where
  step s e :=
    let next := Chip.machine.step s.chip e
    (⟨next.1, acquireAll s.owned next.2⟩, next.2)

/-- Every operation of the step is in order. -/
def Owned (s : Watched) (e : ChipEvent) : Prop :=
  allInOrder s.owned (machine.step s e).2 = true

/-- No RESET, no reset combo and no EMU OFF; ALOG RESET and ALOG DEBUG only after
the first diagnostic round has claimed its resources. -/
def Permitted (s : Watched) : ChipEvent → Prop
  | .combo => s.chip.halted = true
  | .command cmd =>
    match cmd.type with
    | .reset | .emuOff => s.chip.halted = true
    | .alogReset | .alogDebug => s.chip.halted = true ∨ s.chip.diag.inited = true
    | _ => True
  | _ => True

/-- Ownership once the first round has begun. -/
def roundOwners : Acquired :=
  [ (.alog, .sm .pio0 0), (.alog, .channel 0)
  , (.bootCapture, .channel 1), (.bootCapture, .channel 2)
  , (.bootCapture, .sm .pio0 1), (.bootCapture, .sm .pio0 2)
  , (.txnCapture, .channel 3), (.txnCapture, .sm .pio1 0) ]

/-- No handle has been claimed yet. -/
structure Fresh (s : Watched) : Prop where
  claimed : s.chip.sdk.claimed = []
  alog : s.chip.alog = .initial
  capture : s.chip.capture = .initial
  txn : s.chip.txn = .initial
  owned : s.owned = []

/-- The first round has claimed channels 0 to 3, in this order. -/
structure Claimed (place : PioProgram → Nat) (s : Watched) : Prop where
  alog : s.chip.alog = ⟨place .cartAddrLog, 0⟩
  capture : s.chip.capture = ⟨place .bdMemCapture, place .bdIoCapture, 1, 2⟩
  txn : s.chip.txn = ⟨place .txnReadCapture, 3⟩
  owned : s.owned = roundOwners

/-- The handles and the ownership, before and after the one-time init. -/
structure Handles (place : PioProgram → Nat) (lutHigh : U32) (s : Watched) : Prop where
  offset : s.chip.sdk.offset = place
  cart : s.chip.cart = .initial lutHigh
  detect : s.chip.detect = false
  running : s.chip.diag.phase ≠ .idle → s.chip.diag.inited = true
  active : s.chip.diag.captureActive = true → s.chip.diag.phase ≠ .idle
  before : s.chip.diag.inited = false → s.Fresh
  after : s.chip.diag.inited = true → s.Claimed place

variable {place : PioProgram → Nat} {lutHigh : U32}

theorem initial_handles : (initial place lutHigh).Handles place lutHigh where
  offset := rfl
  cart := rfl
  detect := rfl
  running := fun h => absurd rfl h
  active := fun h => Bool.noConfusion h
  before := fun _ => ⟨rfl, rfl, rfl, rfl, rfl⟩
  after := fun h => Bool.noConfusion h

/-- A step with the ownership it leaves. -/
def follow (s : Watched) (next : Chip × List Call) : Watched :=
  ⟨next.1, acquireAll s.owned next.2⟩

/-- The one-time init claims every resource in order. -/
theorem Fresh.init {s : Watched} (fresh : s.Fresh) (at_ : s.chip.sdk.offset = place)
    (diag : BootDiag) :
    let next := { s.chip with diag := diag }.diagCalls
      [.alogInit, .bootCaptureInit, .txnCaptureInit, .bootDetectReset]
    allInOrder s.owned next.2 = true ∧ (s.follow next).Claimed place ∧
      next.1 = { s.chip with
        diag := diag, sdk := next.1.sdk, alog := next.1.alog, capture := next.1.capture
        txn := next.1.txn } ∧ next.1.sdk.offset = place := by
  obtain ⟨⟨⟨offset, claimed⟩, alog, capture, txn, cart, detect, diag₀, ui, halted⟩, owned⟩ := s
  obtain ⟨rfl, rfl, rfl, rfl, rfl⟩ := fresh
  subst at_
  -- The channels first: the calls mention them many times.
  have first : (⟨offset, []⟩ : Sdk).unclaimed = 0 := rfl
  have second : (⟨offset, []⟩ : Sdk).claim.unclaimed = 1 := rfl
  have third : (⟨offset, []⟩ : Sdk).claim.claim.unclaimed = 2 := rfl
  have fourth : (⟨offset, []⟩ : Sdk).claim.claim.claim.unclaimed = 3 := rfl
  simp only [diagCalls, diagCall, Alog.init, BootCapture.Hardware.init, TxnCapture.Hardware.init,
    first, second, third, fourth]
  exact ⟨rfl, ⟨rfl, rfl, rfl, rfl⟩, trivial, rfl⟩

/-- Re-arming, pulsing and stopping touch nothing but the claimed resources. -/
theorem Claimed.calls {s : Watched} (claimed : s.Claimed place) (diag : BootDiag)
    {calls : List DiagCall}
    (known : calls = [] ∨ calls = [.bootDetectReset] ∨
      calls = [.bootCaptureReset, .txnCaptureReset, .pulseResetPassive] ∨
      calls = [.bootCaptureStop, .txnCaptureStop]) :
    let next := { s.chip with diag := diag }.diagCalls calls
    allInOrder s.owned next.2 = true ∧ (s.follow next).Claimed place ∧
      next.1 = { s.chip with diag := diag } := by
  obtain ⟨⟨sdk, alog, capture, txn, cart, detect, diag₀, ui, halted⟩, owned⟩ := s
  obtain ⟨rfl, rfl, rfl, rfl⟩ := claimed
  rcases known with rfl | rfl | rfl | rfl <;> exact ⟨rfl, ⟨rfl, rfl, rfl, rfl⟩, rfl⟩

section Steps

variable {s : Watched} (h : s.Handles place lutHigh)

include h

/-- A tick of an initialised round. -/
theorem Handles.claimedTick (inited : s.chip.diag.inited = true) {diag : BootDiag}
    (inited' : diag.inited = true) (active' : diag.captureActive = true → diag.phase ≠ .idle)
    {calls : List DiagCall}
    (known : calls = [] ∨ calls = [.bootDetectReset] ∨
      calls = [.bootCaptureReset, .txnCaptureReset, .pulseResetPassive] ∨
      calls = [.bootCaptureStop, .txnCaptureStop]) :
    let next := { s.chip with diag := diag }.diagCalls calls
    allInOrder s.owned next.2 = true ∧ (s.follow next).Handles place lutHigh := by
  obtain ⟨inOrder, claimed, chip⟩ := (h.after inited).calls diag known
  refine ⟨inOrder, ?_⟩
  generalize { s.chip with diag := diag }.diagCalls calls = next at claimed chip
  obtain ⟨after, made⟩ := next
  subst chip
  refine ⟨h.offset, h.cart, h.detect, fun _ => inited', active', ?_, fun _ => claimed⟩
  intro fresh
  exact absurd (inited'.symm.trans fresh) (by simp)

/-- The tick that begins the first round. -/
theorem Handles.firstTick (fresh : s.chip.diag.inited = false) {diag : BootDiag}
    (inited' : diag.inited = true) (active' : diag.captureActive = true → diag.phase ≠ .idle) :
    let next := { s.chip with diag := diag }.diagCalls
      [.alogInit, .bootCaptureInit, .txnCaptureInit, .bootDetectReset]
    allInOrder s.owned next.2 = true ∧ (s.follow next).Handles place lutHigh := by
  obtain ⟨inOrder, claimed, chip, offset⟩ := (h.before fresh).init h.offset diag
  refine ⟨inOrder, ?_⟩
  generalize { s.chip with diag := diag }.diagCalls
    [.alogInit, .bootCaptureInit, .txnCaptureInit, .bootDetectReset] = next at claimed chip offset
  have cart : next.1.cart = s.chip.cart := by rw [chip]
  have detect : next.1.detect = s.chip.detect := by rw [chip]
  have round : next.1.diag = diag := by rw [chip]
  refine ⟨offset, cart.trans h.cart, detect.trans h.detect, ?_, ?_, ?_, fun _ => claimed⟩
  · intro _
    show next.1.diag.inited = true
    rw [round, inited']
  · show next.1.diag.captureActive = true → next.1.diag.phase ≠ .idle
    rw [round]
    exact active'
  · intro again
    rw [show (s.follow next).chip.diag = diag from round, inited'] at again
    exact absurd again (by simp)

/-- A tick's calls are in order, in whatever state it finds the round. -/
theorem Handles.tick (nowMs : U32) (snap : BusProbeSnapshot) (bs : BootDetect)
    (bi : BusIntegrity) :
    allInOrder s.owned (s.chip.tick nowMs snap bs bi).2 = true ∧
      (s.follow (s.chip.tick nowMs snap bs bi)).Handles place lutHigh := by
  have running := h.running
  have active := h.active
  have outcome := BootDiag.tick_outcome { s.chip.diag with bi := bi } snap bs nowMs
  unfold Chip.tick
  generalize { s.chip.diag with bi := bi }.tick snap bs nowMs = next at outcome
  cases outcome with
  | wait stays early armed =>
    refine ⟨rfl, h.offset, h.cart, h.detect, running, active, ?_, ?_⟩
    · intro fresh
      obtain ⟨claimed, alog, capture, txn, owned⟩ := h.before fresh
      exact ⟨claimed, alog, capture, txn, owned⟩
    · intro inited
      obtain ⟨alog, capture, txn, owned⟩ := h.after inited
      exact ⟨alog, capture, txn, owned⟩
  | beginRound ready requested =>
    by_cases inited : s.chip.diag.inited = true
    · simp only [inited, if_true, List.nil_append]
      exact h.claimedTick inited rfl (fun _ => BootDiagPhase.noConfusion) (.inr (.inl rfl))
    · rw [Bool.not_eq_true] at inited
      simp only [inited, Bool.false_eq_true, if_false]
      exact h.firstTick inited rfl (fun _ => BootDiagPhase.noConfusion)
  | beginPass armed =>
    have inited := running (by simp only [show s.chip.diag.phase = _ from armed]; simp)
    refine h.claimedTick inited ?_ (fun _ => BootDiagPhase.noConfusion) (.inr (.inr (.inl rfl)))
    exact inited
  | endWindow capturing late =>
    have inited := running (by simp only [show s.chip.diag.phase = _ from capturing]; simp)
    refine h.claimedTick inited ?_ (fun _ => BootDiagPhase.noConfusion) (.inr (.inr (.inr rfl)))
    exact inited
  | nextPass settled late incomplete remaining =>
    have inited := running (by simp only [show s.chip.diag.phase = _ from settled]; simp)
    refine h.claimedTick inited ?_ (fun _ => BootDiagPhase.noConfusion) (.inl rfl)
    exact inited
  | finish settled late stops =>
    have inited := running (by simp only [show s.chip.diag.phase = _ from settled]; simp)
    refine h.claimedTick inited ?_ (fun _ => BootDiagPhase.noConfusion) (.inl rfl)
    exact inited

end Steps

section Commands

variable {s : Watched}

/-- What the calls of a command do to the ownership record, and when they are in order. -/
theorem Fresh.command (fresh : s.Fresh) (cart : s.chip.cart = .initial lutHigh) (cmd : ParsedCmd) :
    let calls := CmdDispatch.cmdDispatch s.chip.alog s.chip.capture s.chip.cart cmd
    acquireAll s.owned calls = s.owned ∧
      allInOrder s.owned calls =
        !decide (cmd.type ∈ [.reset, .emuOff, .alogReset, .alogDebug]) := by
  obtain ⟨⟨sdk, alog, capture, txn, cart₀, detect, diag, ui, halted⟩, owned⟩ := s
  obtain ⟨_, rfl, rfl, rfl, rfl⟩ := fresh
  subst cart
  obtain ⟨type, arg⟩ := cmd
  cases type with
  | alogSlot =>
    simp only [CmdDispatch.cmdDispatch, Alog.printSlot]
    split <;> exact ⟨rfl, rfl⟩
  | reset =>
    refine (allInOrder_of_not_acquires ?_).imp_right fun inOrder => inOrder.trans ?_
    · simp only [CmdDispatch.cmdDispatch, CmdDispatch.cmdReset, List.all_append]
      exact rfl
    · simp only [CmdDispatch.cmdDispatch, CmdDispatch.cmdReset, List.all_append]
      exact rfl
  | _ => exact ⟨rfl, rfl⟩

theorem Claimed.command (claimed : s.Claimed place) (cart : s.chip.cart = .initial lutHigh)
    (cmd : ParsedCmd) :
    let calls := CmdDispatch.cmdDispatch s.chip.alog s.chip.capture s.chip.cart cmd
    acquireAll s.owned calls = s.owned ∧
      allInOrder s.owned calls = !decide (cmd.type ∈ [.reset, .emuOff]) := by
  obtain ⟨⟨sdk, alog, capture, txn, cart₀, detect, diag, ui, halted⟩, owned⟩ := s
  obtain ⟨rfl, rfl, rfl, rfl⟩ := claimed
  subst cart
  obtain ⟨type, arg⟩ := cmd
  cases type with
  | alogSlot =>
    simp only [CmdDispatch.cmdDispatch, Alog.printSlot]
    split <;> exact ⟨rfl, rfl⟩
  | reset =>
    refine (allInOrder_of_not_acquires ?_).imp_right fun inOrder => inOrder.trans ?_
    · simp only [CmdDispatch.cmdDispatch, CmdDispatch.cmdReset, List.all_append]
      exact rfl
    · simp only [CmdDispatch.cmdDispatch, CmdDispatch.cmdReset, List.all_append]
      exact rfl
  | _ => exact ⟨rfl, rfl⟩

/-- The reset combo always reaches into state machines and a channel that
cart_serve.c has never initialised. -/
theorem Fresh.combo (fresh : s.Fresh) (cart : s.chip.cart = .initial lutHigh) :
    let calls := MsxRuntime.pulseReset s.chip.alog s.chip.capture s.chip.cart false
    acquireAll s.owned calls = s.owned ∧ allInOrder s.owned calls = false := by
  obtain ⟨⟨sdk, alog, capture, txn, cart₀, detect, diag, ui, halted⟩, owned⟩ := s
  obtain ⟨_, rfl, rfl, rfl, rfl⟩ := fresh
  subst cart
  exact ⟨rfl, rfl⟩

theorem Claimed.combo (claimed : s.Claimed place) (cart : s.chip.cart = .initial lutHigh) :
    let calls := MsxRuntime.pulseReset s.chip.alog s.chip.capture s.chip.cart false
    acquireAll s.owned calls = s.owned ∧ allInOrder s.owned calls = false := by
  obtain ⟨⟨sdk, alog, capture, txn, cart₀, detect, diag, ui, halted⟩, owned⟩ := s
  obtain ⟨rfl, rfl, rfl, rfl⟩ := claimed
  subst cart
  exact ⟨rfl, rfl⟩

/-- Core 1 drains only while a round captures, when every handle is claimed. -/
theorem Handles.core1 (h : s.Handles place lutHigh) :
    acquireAll s.owned s.chip.core1 = s.owned ∧ allInOrder s.owned s.chip.core1 = true := by
  unfold Chip.core1
  by_cases active : s.chip.diag.captureActive = true
  · have claimed := h.after (h.running (h.active active))
    rw [if_pos active]
    obtain ⟨⟨sdk, alog, capture, txn, cart, detect, diag, ui, halted⟩, owned⟩ := s
    obtain ⟨rfl, rfl, rfl, rfl⟩ := claimed
    exact ⟨rfl, rfl⟩
  · rw [if_neg active]
    exact ⟨rfl, rfl⟩

/-- A step that keeps the handles, the ownership and the progress of the round. -/
theorem Handles.keep (h : s.Handles place lutHigh) {chip : Chip} {calls : List Call}
    (owned : acquireAll s.owned calls = s.owned)
    (handles : (chip.sdk, chip.alog, chip.capture, chip.txn, chip.cart, chip.detect) =
      (s.chip.sdk, s.chip.alog, s.chip.capture, s.chip.txn, s.chip.cart, s.chip.detect))
    (round : chip.diag = s.chip.diag ∨ chip.diag = s.chip.diag.start) :
    (s.follow (chip, calls)).Handles place lutHigh := by
  simp only [Prod.mk.injEq] at handles
  obtain ⟨sdk, alog, capture, txn, cart, detect⟩ := handles
  have inited : chip.diag.inited = s.chip.diag.inited := by
    rcases round with same | same <;> rw [same]
    rw [BootDiag.start_eq]
  have phase : chip.diag.phase = s.chip.diag.phase := by
    rcases round with same | same <;> rw [same]
    rw [BootDiag.start_eq]
  have active : chip.diag.captureActive = s.chip.diag.captureActive := by
    rcases round with same | same <;> rw [same]
    rw [BootDiag.start_eq]
  unfold follow
  refine ⟨sdk ▸ h.offset, cart.trans h.cart, detect.trans h.detect, ?_, ?_, ?_, ?_⟩
  · rw [phase, inited]
    exact h.running
  · rw [active, phase]
    exact h.active
  · intro fresh
    obtain ⟨c, a, k, t, o⟩ := h.before (inited ▸ fresh)
    exact ⟨sdk ▸ c, alog.trans a, capture.trans k, txn.trans t, owned.trans o⟩
  · intro started
    obtain ⟨a, k, t, o⟩ := h.after (inited ▸ started)
    exact ⟨alog.trans a, capture.trans k, txn.trans t, owned.trans o⟩

end Commands

section Run

variable {s : Watched} (h : s.Handles place lutHigh)

include h

theorem Handles.combo :
    acquireAll s.owned (MsxRuntime.pulseReset s.chip.alog s.chip.capture s.chip.cart s.chip.detect) =
        s.owned ∧
      allInOrder s.owned
        (MsxRuntime.pulseReset s.chip.alog s.chip.capture s.chip.cart s.chip.detect) = false := by
  rw [h.detect]
  cases inited : s.chip.diag.inited with
  | false => exact (h.before inited).combo h.cart
  | true => exact (h.after inited).combo h.cart

/-- A command's calls are in order exactly if the command is permitted. -/
theorem Handles.command (running : s.chip.halted = false) (cmd : ParsedCmd) :
    let calls := CmdDispatch.cmdDispatch s.chip.alog s.chip.capture s.chip.cart cmd
    acquireAll s.owned calls = s.owned ∧
      (allInOrder s.owned calls = true ↔ s.Permitted (.command cmd)) := by
  obtain ⟨type, arg⟩ := cmd
  cases inited : s.chip.diag.inited with
  | false =>
    obtain ⟨owned, inOrder⟩ := (h.before inited).command h.cart ⟨type, arg⟩
    refine ⟨owned, ?_⟩
    rw [inOrder]
    cases type <;> simp [Permitted, running, inited]
  | true =>
    obtain ⟨owned, inOrder⟩ := (h.after inited).command h.cart ⟨type, arg⟩
    refine ⟨owned, ?_⟩
    rw [inOrder]
    cases type <;> simp [Permitted, running, inited]

/-- One step keeps the handles, and is in order exactly if it is permitted. -/
theorem Handles.step (e : ChipEvent) :
    (machine.step s e).1.Handles place lutHigh ∧ (s.Owned e ↔ s.Permitted e) := by
  cases running : s.chip.halted with
  | true =>
    have stays : machine.step s e = (s, []) := by
      simp [machine, Chip.machine, running, acquireAll]
    have quiet : s.Permitted e := by
      cases e with
      | command cmd => simp only [Permitted]; split <;> simp [running]
      | combo => exact running
      | _ => trivial
    refine ⟨by rw [stays]; exact h, ?_⟩
    unfold Owned
    rw [stays]
    exact ⟨fun _ => quiet, fun _ => rfl⟩
  | false =>
    have moves : machine.step s e = (s.follow (s.chip.step e), (s.chip.step e).2) := by
      simp [machine, Chip.machine, running, follow]
    unfold Owned
    rw [moves]
    cases e with
    | tick nowMs snap bs bi =>
      obtain ⟨inOrder, handles⟩ := h.tick nowMs snap bs bi
      exact ⟨handles, fun _ => trivial, fun _ => inOrder⟩
    | button b =>
      refine ⟨h.keep rfl rfl ?_, fun _ => trivial, fun _ => rfl⟩
      unfold Chip.button
      dsimp only
      split
      · exact .inr rfl
      · exact .inl rfl
    | combo =>
      obtain ⟨owned, broken⟩ := h.combo
      refine ⟨h.keep owned rfl (.inl rfl), ?_⟩
      show allInOrder s.owned _ = true ↔ s.chip.halted = true
      rw [running]
      simp only [Chip.step, broken]
    | command cmd =>
      obtain ⟨owned, permitted⟩ := h.command running cmd
      refine ⟨h.keep owned rfl ?_, permitted⟩
      dsimp only
      split
      · exact .inr rfl
      · exact .inl rfl
    | render => exact ⟨h.keep rfl rfl (.inl rfl), fun _ => trivial, fun _ => rfl⟩
    | core1 =>
      obtain ⟨owned, inOrder⟩ := h.core1
      exact ⟨h.keep owned rfl (.inl rfl), fun _ => trivial, fun _ => inOrder⟩

end Run

/-- Every operation of a run acts on a resource that its own module, and no other,
has acquired exactly when every step of the run is permitted. -/
theorem owned_iff_permitted (place : PioProgram → Nat) (lutHigh : U32) (events : List ChipEvent) :
    machine.Along Owned (initial place lutHigh) events ↔
      machine.Along Permitted (initial place lutHigh) events :=
  machine.along_congr (Handles place lutHigh) (fun _ e h => (h.step e).1)
    (fun _ e h => (h.step e).2) initial_handles events

/-- RESET right after bring-up. -/
theorem reset_not_owned :
    ¬ machine.Along Owned (initial (fun _ => 0) 0x2001#32) [.command ⟨.reset, 0#16⟩] := by
  intro along
  exact absurd along.1 (by unfold Owned; decide +kernel)

end Watched

end Chip

end MsxPulse.Firmware
