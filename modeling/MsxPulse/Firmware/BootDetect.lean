import MsxPulse.Firmware.Types
import MsxPulse.Library.CString
import Mathlib.Data.List.Induction
import Mathlib.Tactic.SplitIfs

/-!
# The boot-phase state machine (boot_detect.c)

The detector's static state is passed explicitly. `feed` follows the switch of
`boot_detect_feed`; every path that sets a phase recomputes the derived fields.
-/

namespace MsxPulse.Firmware

/-- Ordered boot phases; the index order is the milestone order. -/
inductive BootPhase where
  | resetVector
  | biosEntry
  | slotRamProbe
  | biosInitDone
  | basicHandoff
  | basicColdstart
  | basicBiosVecs
  | vdpInit
  | cartScan
  deriving DecidableEq

namespace BootPhase

open Library.CString (ascii)

/-- The enumerator's value. -/
def index : BootPhase → Nat
  | resetVector => 0
  | biosEntry => 1
  | slotRamProbe => 2
  | biosInitDone => 3
  | basicHandoff => 4
  | basicColdstart => 5
  | basicBiosVecs => 6
  | vdpInit => 7
  | cartScan => 8

/-- `BP_PHASE_COUNT` -/
def count : Nat := 9

theorem index_lt (p : BootPhase) : p.index < count := by cases p <;> decide

theorem index_injective : Function.Injective index := by
  intro p q same
  cases p <;> cases q <;> first | rfl | exact absurd same (by decide)

theorem exists_index {i : Nat} (inside : i < count) : ∃ p : BootPhase, p.index = i := by
  unfold count at inside
  match i with
  | 0 => exact ⟨resetVector, rfl⟩
  | 1 => exact ⟨biosEntry, rfl⟩
  | 2 => exact ⟨slotRamProbe, rfl⟩
  | 3 => exact ⟨biosInitDone, rfl⟩
  | 4 => exact ⟨basicHandoff, rfl⟩
  | 5 => exact ⟨basicColdstart, rfl⟩
  | 6 => exact ⟨basicBiosVecs, rfl⟩
  | 7 => exact ⟨vdpInit, rfl⟩
  | 8 => exact ⟨cartScan, rfl⟩

/-- All phases in the order of their values. -/
def all : List BootPhase :=
  [resetVector, biosEntry, slotRamProbe, biosInitDone, basicHandoff, basicColdstart, basicBiosVecs,
    vdpInit, cartScan]

/-- `boot_phase_name` -/
def name : BootPhase → List U8
  | resetVector => ascii "Reset vector fetch"
  | biosEntry => ascii "BIOS early init"
  | slotRamProbe => ascii "Slot/RAM probe"
  | biosInitDone => ascii "BIOS init complete"
  | basicHandoff => ascii "BIOS->BASIC handoff"
  | basicColdstart => ascii "BASIC cold start"
  | basicBiosVecs => ascii "BASIC BIOS vectors"
  | vdpInit => ascii "VDP init activity"
  | cartScan => ascii "Cartridge scan"

/-- `boot_phase_short_name` -/
def shortName : BootPhase → List U8
  | resetVector => ascii "Reset vector"
  | biosEntry => ascii "BIOS early init"
  | slotRamProbe => ascii "Slot/RAM probe"
  | biosInitDone => ascii "BIOS init done"
  | basicHandoff => ascii "BASIC handoff"
  | basicColdstart => ascii "BASIC coldstart"
  | basicBiosVecs => ascii "BASIC BIOS vecs"
  | vdpInit => ascii "VDP init"
  | cartScan => ascii "Cart scan"

/-- One of the two names for the value of an enumerator; `?` for any other value. -/
def nameAt (names : BootPhase → List U8) (value : Int) : List U8 :=
  ((all.find? fun p => p.index = value).map names).getD (ascii "?")

end BootPhase

/-- `boot_phase_status_t` -/
inductive BootPhaseStatus where
  | ok
  | stalled
  | notReached
  deriving DecidableEq

/-- `boot_phase_status_of` -/
def BootPhase.statusOf (phaseFlags : U16) (firstMissing : Int) (p : BootPhase) :
    BootPhaseStatus :=
  if bitSet phaseFlags p.index then .ok
  else if (p.index : Int) = firstMissing then .stalled
  else .notReached

inductive BusEventKind where
  | fetch
  | memRead
  | memWrite
  | ioRead
  | ioWrite
  deriving DecidableEq

/-- A decoded bus event; `data` is trustworthy only when `dataValid`. -/
structure BootBusEvent where
  kind : BusEventKind
  addr : U16
  data : U8
  dataValid : Bool
  deriving DecidableEq

/-- The low address byte of an I/O event. -/
def BootBusEvent.port (ev : BootBusEvent) : U8 := ev.addr.setWidth 8

structure BootDetect where
  phaseFlags : U16
  earlyPpiWrites : Bool
  basicWorkareaInit : Bool
  headerRead : Bool
  header4000 : U8
  header4001 : U8
  lastConfirmed : Int
  firstMissing : Int
  deriving DecidableEq

namespace BootDetect

/-- First loop of `recompute_derived`: the highest set bit. -/
def highestSet (flags : U16) : Int :=
  (List.range BootPhase.count).foldl
    (fun last i => if bitSet flags i then (i : Int) else last) (-1)

/-- Second loop of `recompute_derived`: the lowest unset bit, left by `break`. -/
def lowestUnset (flags : U16) : Int :=
  ((List.range BootPhase.count).find? (!bitSet flags ·)).elim (BootPhase.count : Int) Int.ofNat

def recomputeDerived (s : BootDetect) : BootDetect :=
  { s with
    lastConfirmed := highestSet s.phaseFlags
    firstMissing := lowestUnset s.phaseFlags }

def reset : BootDetect := recomputeDerived
  { phaseFlags := 0#16
    earlyPpiWrites := false
    basicWorkareaInit := false
    headerRead := false
    header4000 := 0xFF#8
    header4001 := 0xFF#8
    lastConfirmed := 0
    firstMissing := 0 }

def setPhase (s : BootDetect) (p : BootPhase) : BootDetect :=
  recomputeDerived { s with phaseFlags := s.phaseFlags ||| (1#16 <<< p.index) }

/-- Header bytes are latched from valid reads only; the phase is set by any read. -/
def latchHeader (s : BootDetect) (ev : BootBusEvent) : BootDetect :=
  if ev.dataValid then
    let s := if ev.addr = 0x4000#16 then { s with header4000 := ev.data }
      else { s with header4001 := ev.data }
    if s.header4000 = 0x41#8 ∧ s.header4001 = 0x42#8 then { s with headerRead := true } else s
  else s

def feed (s : BootDetect) (ev : BootBusEvent) : BootDetect :=
  match ev.kind with
  | .fetch =>
    if ev.addr = 0x0000#16 then s.setPhase .resetVector
    else if ev.addr = 0x02D7#16 then s.setPhase .biosEntry
    else if ev.addr = 0x03F8#16 then s.setPhase .biosInitDone
    else if ev.addr = 0x2680#16 then s.setPhase .basicHandoff
    else if ev.addr = 0x7C76#16 then s.setPhase .basicColdstart
    else if ev.addr = 0x003E#16 ∨ ev.addr = 0x003B#16 ∨
        ev.addr = 0x006F#16 ∨ ev.addr = 0x0069#16 then s.setPhase .basicBiosVecs
    else if ev.addr = 0x7D75#16 then s.setPhase .cartScan
    else s
  | .memRead =>
    if ev.addr = 0x4000#16 ∨ ev.addr = 0x4001#16 then (s.setPhase .cartScan).latchHeader ev
    else s
  | .memWrite =>
    let s := if ev.addr = 0xFD9A#16 then
        { s with basicWorkareaInit := true }.setPhase .basicColdstart
      else s
    if ev.addr = 0xFFFF#16 ∨ ev.addr = 0xBF00#16 ∨ ev.addr = 0xFE00#16 ∨ ev.addr ≥ 0xC000#16 then
      s.setPhase .slotRamProbe
    else s
  | .ioWrite =>
    if ev.port = 0xAB#8 ∨ ev.port = 0xA8#8 ∨ ev.port = 0xAA#8 then
      let s := { s with earlyPpiWrites := true }.setPhase .biosEntry
      if ev.port = 0xA8#8 then s.setPhase .slotRamProbe else s
    else if ev.port = 0x99#8 ∨ ev.port = 0x98#8 then s.setPhase .vdpInit
    else s
  | .ioRead => s

/-- A list of events, fed one after the other. -/
def feedAll (s : BootDetect) (events : List BootBusEvent) : BootDetect := events.foldl feed s

@[simp] theorem feedAll_concat (s : BootDetect) (events : List BootBusEvent) (ev : BootBusEvent) :
    s.feedAll (events ++ [ev]) = (s.feedAll events).feed ev := by
  simp [feedAll]

/-- Phase `p` has been observed. -/
def observed (s : BootDetect) (p : BootPhase) : Bool := bitSet s.phaseFlags p.index

/-- The derived fields are those of the phase flags. -/
def Derived (s : BootDetect) : Prop :=
  s.lastConfirmed = highestSet s.phaseFlags ∧ s.firstMissing = lowestUnset s.phaseFlags

section Fields

variable (s : BootDetect) (p q : BootPhase) (ev : BootBusEvent)

@[simp] theorem setPhase_phaseFlags :
    (s.setPhase p).phaseFlags = s.phaseFlags ||| (1#16 <<< p.index) := rfl
@[simp] theorem setPhase_earlyPpiWrites : (s.setPhase p).earlyPpiWrites = s.earlyPpiWrites := rfl
@[simp] theorem setPhase_basicWorkareaInit :
    (s.setPhase p).basicWorkareaInit = s.basicWorkareaInit := rfl
@[simp] theorem setPhase_headerRead : (s.setPhase p).headerRead = s.headerRead := rfl
@[simp] theorem setPhase_header4000 : (s.setPhase p).header4000 = s.header4000 := rfl
@[simp] theorem setPhase_header4001 : (s.setPhase p).header4001 = s.header4001 := rfl

theorem setPhase_derived : (s.setPhase p).Derived := ⟨rfl, rfl⟩

@[simp] theorem observed_setPhase :
    (s.setPhase p).observed q = (s.observed q || decide (q = p)) := by
  have inside : q.index < 16 := Nat.lt_trans q.index_lt (by decide)
  simp only [observed, bitSet_eq_getLsbD, setPhase_phaseFlags, BitVec.getLsbD_or]
  congr 1
  by_cases same : q = p
  · subst same
    simp [inside]
  · have differ : q.index ≠ p.index := fun h => same (BootPhase.index_injective h)
    have clear : q.index < p.index ∨ ¬ q.index - p.index = 0 := by omega
    rcases clear with h | h <;> simp [h, same]

@[simp] theorem observed_basicWorkareaInit (seen : Bool) :
    ({ s with basicWorkareaInit := seen } : BootDetect).observed p = s.observed p := rfl

@[simp] theorem observed_earlyPpiWrites (seen : Bool) :
    ({ s with earlyPpiWrites := seen } : BootDetect).observed p = s.observed p := rfl

/-- Only the header fields change. -/
theorem latchHeader_eq :
    s.latchHeader ev = { s with
      headerRead := (s.latchHeader ev).headerRead
      header4000 := (s.latchHeader ev).header4000
      header4001 := (s.latchHeader ev).header4001 } := by
  unfold latchHeader
  split_ifs <;> dsimp only <;> split_ifs <;> rfl

@[simp] theorem latchHeader_phaseFlags : (s.latchHeader ev).phaseFlags = s.phaseFlags := by
  rw [latchHeader_eq]
@[simp] theorem latchHeader_earlyPpiWrites :
    (s.latchHeader ev).earlyPpiWrites = s.earlyPpiWrites := by
  rw [latchHeader_eq]
@[simp] theorem latchHeader_basicWorkareaInit :
    (s.latchHeader ev).basicWorkareaInit = s.basicWorkareaInit := by
  rw [latchHeader_eq]
@[simp] theorem latchHeader_lastConfirmed :
    (s.latchHeader ev).lastConfirmed = s.lastConfirmed := by
  rw [latchHeader_eq]
@[simp] theorem latchHeader_firstMissing :
    (s.latchHeader ev).firstMissing = s.firstMissing := by
  rw [latchHeader_eq]

@[simp] theorem observed_latchHeader : (s.latchHeader ev).observed p = s.observed p := by
  simp [observed]

theorem latchHeader_derived (derived : s.Derived) : (s.latchHeader ev).Derived := by
  simpa [Derived] using derived

end Fields

theorem feed_derived {s : BootDetect} (derived : s.Derived) (ev : BootBusEvent) :
    (s.feed ev).Derived := by
  unfold feed
  cases ev.kind with
  | fetch => dsimp only; split_ifs <;> first | exact setPhase_derived _ _ | exact derived
  | memRead =>
    dsimp only
    split_ifs
    · exact latchHeader_derived _ _ (setPhase_derived _ _)
    · exact derived
  | memWrite => dsimp only; split_ifs <;> first | exact setPhase_derived _ _ | exact derived
  | ioRead => exact derived
  | ioWrite => dsimp only; split_ifs <;> first | exact setPhase_derived _ _ | exact derived

theorem feedAll_derived (events : List BootBusEvent) : (reset.feedAll events).Derived := by
  induction events using List.reverseRecOn with
  | nil => exact ⟨rfl, rfl⟩
  | append_singleton events ev ih => simpa using feed_derived ih ev

end BootDetect

end MsxPulse.Firmware
