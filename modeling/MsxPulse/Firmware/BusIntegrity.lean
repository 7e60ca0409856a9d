import MsxPulse.Firmware.Types
import MsxPulse.Library.Bits

/-!
# The read-stream analyzer (bus_integrity.c)

`feed` folds one driven read into six accumulators; the findings are derived
from them on demand. `feedAll_eq` gives the accumulators after a whole stream
in closed form, which is all that later proofs use.
-/

namespace MsxPulse.Firmware

open Library

/-- Reference data byte expected at a known BIOS read address. -/
structure BusCheckpoint where
  addr : U16
  expected : U8
  deriving DecidableEq

/-- The first BIOS fetches of a V20: `DI`, `JP $02D7`, `LD A,$82`. -/
def v20Checkpoints : List BusCheckpoint :=
  [⟨0x0000#16, 0xF3#8⟩, ⟨0x0001#16, 0xC3#8⟩, ⟨0x0002#16, 0xD7#8⟩,
   ⟨0x0003#16, 0x02#8⟩, ⟨0x02D7#16, 0x3E#8⟩, ⟨0x02D8#16, 0x82#8⟩]

structure BusIntegrity where
  dataSeenHi : U8
  dataSeenLo : U8
  addrSeenHi : U16
  addrSeenLo : U16
  nReads : U32
  nAllzero : U32
  nAllone : U32
  cpChecked : U8
  cpFailed : U8
  deriving DecidableEq

/-- One captured read transaction. -/
structure BusRead where
  addr : U16
  data : U8
  deriving DecidableEq

namespace BusIntegrity

def reset : BusIntegrity where
  dataSeenHi := 0#8
  dataSeenLo := 0#8
  addrSeenHi := 0#16
  addrSeenLo := 0#16
  nReads := 0#32
  nAllzero := 0#32
  nAllone := 0#32
  cpChecked := 0#8
  cpFailed := 0#8

/-- The body of the checkpoint loop at `V20_CHECKPOINTS[k]`. -/
def checkpoint (addr : U16) (data : U8) (b : BusIntegrity) (entry : BusCheckpoint × Nat) :
    BusIntegrity :=
  let (cp, k) := entry
  if cp.addr = addr then
    { b with
      cpChecked := b.cpChecked ||| (1#8 <<< k)
      cpFailed := if data ≠ cp.expected then b.cpFailed ||| (1#8 <<< k) else b.cpFailed }
  else b

def feed (b : BusIntegrity) (addr : U16) (data : U8) : BusIntegrity :=
  let b := { b with
    nReads := b.nReads + 1#32
    dataSeenHi := b.dataSeenHi ||| data
    dataSeenLo := b.dataSeenLo ||| ~~~data
    addrSeenHi := b.addrSeenHi ||| addr
    addrSeenLo := b.addrSeenLo ||| ~~~addr
    nAllzero := if data = 0x00#8 then b.nAllzero + 1#32 else b.nAllzero
    nAllone := if data = 0xFF#8 then b.nAllone + 1#32 else b.nAllone }
  v20Checkpoints.zipIdx.foldl (checkpoint addr data) b

def stuckDataHi (b : BusIntegrity) (minReads : U32) : U8 :=
  if b.nReads < minReads then 0 else b.dataSeenHi &&& ~~~b.dataSeenLo

def stuckDataLo (b : BusIntegrity) (minReads : U32) : U8 :=
  if b.nReads < minReads then 0 else b.dataSeenLo &&& ~~~b.dataSeenHi

def popcount16 (v : U16) : U32 := popcountLoop 0#32 v

def stuckAddr (b : BusIntegrity) (minReads minDistinctBits : U32) : U16 :=
  if b.nReads < minReads then 0
  else
    let toggled := b.addrSeenHi &&& b.addrSeenLo
    if popcount16 toggled < minDistinctBits then 0  -- tight loop: suppressed
    else
      let seen := b.addrSeenHi ||| b.addrSeenLo
      seen &&& ~~~toggled

def busUndriven (b : BusIntegrity) (minReads : U32) : Bool :=
  if b.nReads < minReads then false
  else
    let bad := b.nAllzero + b.nAllone
    decide (bad * 2#32 > b.nReads)

/-- A drained list of reads, fed one after the other. -/
def feedAll (b : BusIntegrity) (reads : List BusRead) : BusIntegrity :=
  reads.foldl (fun b r => b.feed r.addr r.data) b

@[simp] theorem feedAll_nil (b : BusIntegrity) : b.feedAll [] = b := rfl

@[simp] theorem feedAll_cons (b : BusIntegrity) (r : BusRead) (reads : List BusRead) :
    b.feedAll (r :: reads) = (b.feed r.addr r.data).feedAll reads := rfl

theorem feedAll_append (b : BusIntegrity) (first second : List BusRead) :
    b.feedAll (first ++ second) = (b.feedAll first).feedAll second := by
  simp [feedAll]

theorem feedAll_flatten (b : BusIntegrity) (passes : List (List BusRead)) :
    b.feedAll passes.flatten = passes.foldl feedAll b := by
  induction passes generalizing b with
  | nil => rfl
  | cons pass passes ih => simp [feedAll_append, ih]

/-- What a read at `addr` adds to `cp_checked` at one table entry. -/
def checkedBit (addr : U16) (entry : BusCheckpoint × Nat) : U8 :=
  if entry.1.addr = addr then 1#8 <<< entry.2 else 0#8

/-- What a read of `data` at `addr` adds to `cp_failed` at one table entry. -/
def failedBit (addr : U16) (data : U8) (entry : BusCheckpoint × Nat) : U8 :=
  if entry.1.addr = addr ∧ data ≠ entry.1.expected then 1#8 <<< entry.2 else 0#8

theorem checkpoint_foldl (addr : U16) (data : U8) (entries : List (BusCheckpoint × Nat))
    (b : BusIntegrity) :
    entries.foldl (checkpoint addr data) b =
      { b with
        cpChecked := orAll (checkedBit addr) entries b.cpChecked
        cpFailed := orAll (failedBit addr data) entries b.cpFailed } := by
  induction entries generalizing b with
  | nil => rfl
  | cons entry entries ih =>
    rw [List.foldl_cons, ih]
    by_cases here : entry.1.addr = addr <;> by_cases wrong : data = entry.1.expected <;>
      simp [checkpoint, checkedBit, failedBit, here, wrong]

/-- The masks one read adds to `cp_checked` and `cp_failed`. -/
def checkedMask (addr : U16) : U8 := orAll (checkedBit addr) v20Checkpoints.zipIdx 0
def failedMask (addr : U16) (data : U8) : U8 :=
  orAll (failedBit addr data) v20Checkpoints.zipIdx 0

theorem orAll_acc {α : Type} {w : Nat} (f : α → BitVec w) (l : List α) (acc : BitVec w) :
    orAll f l acc = acc ||| orAll f l 0 := by
  apply BitVec.eq_of_getLsbD_eq
  intro k _
  simp [getLsbD_orAll, -BitVec.getLsbD_eq_getElem]

theorem feed_eq (b : BusIntegrity) (addr : U16) (data : U8) :
    b.feed addr data =
      { dataSeenHi := b.dataSeenHi ||| data
        dataSeenLo := b.dataSeenLo ||| ~~~data
        addrSeenHi := b.addrSeenHi ||| addr
        addrSeenLo := b.addrSeenLo ||| ~~~addr
        nReads := b.nReads + 1#32
        nAllzero := if data = 0x00#8 then b.nAllzero + 1#32 else b.nAllzero
        nAllone := if data = 0xFF#8 then b.nAllone + 1#32 else b.nAllone
        cpChecked := b.cpChecked ||| checkedMask addr
        cpFailed := b.cpFailed ||| failedMask addr data } := by
  unfold feed
  rw [checkpoint_foldl]
  simp only [checkedMask, failedMask]
  rw [orAll_acc _ _ b.cpChecked, orAll_acc _ _ b.cpFailed]

/-- The accumulators after a whole stream of reads. -/
theorem feedAll_eq (b : BusIntegrity) (reads : List BusRead) :
    b.feedAll reads =
      { dataSeenHi := orAll (·.data) reads b.dataSeenHi
        dataSeenLo := orAll (~~~·.data) reads b.dataSeenLo
        addrSeenHi := orAll (·.addr) reads b.addrSeenHi
        addrSeenLo := orAll (~~~·.addr) reads b.addrSeenLo
        nReads := b.nReads + BitVec.ofNat 32 reads.length
        nAllzero := b.nAllzero + BitVec.ofNat 32 (reads.countP (·.data = 0x00#8))
        nAllone := b.nAllone + BitVec.ofNat 32 (reads.countP (·.data = 0xFF#8))
        cpChecked := orAll (fun r => checkedMask r.addr) reads b.cpChecked
        cpFailed := orAll (fun r => failedMask r.addr r.data) reads b.cpFailed } := by
  induction reads generalizing b with
  | nil => simp
  | cons r reads ih =>
    have count (c : U32) (n : Nat) :
        c + 1#32 + BitVec.ofNat 32 n = c + BitVec.ofNat 32 (n + 1) := by
      rw [BitVec.ofNat_add, BitVec.add_assoc, BitVec.add_comm 1#32]
    have countIf (c : U32) (value : U8) :
        (if r.data = value then c + 1#32 else c) +
            BitVec.ofNat 32 (reads.countP (·.data = value)) =
          c + BitVec.ofNat 32 ((r :: reads).countP (·.data = value)) := by
      by_cases hit : r.data = value
      · simp only [hit, if_true, count, List.countP_cons_of_pos, decide_true]
      · simp [hit]
    rw [feedAll_cons, ih, feed_eq]
    simp only [countIf, count, orAll_cons, List.length_cons]

end BusIntegrity

end MsxPulse.Firmware
