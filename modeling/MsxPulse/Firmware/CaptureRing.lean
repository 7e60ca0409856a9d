import MsxPulse.Firmware.Types
import MsxPulse.Library.Machine
import MsxPulse.Library.Ring
import Mathlib.Algebra.Group.Nat.Defs

/-!
# DMA capture rings and their drains (boot_capture.c, txn_capture.c)

The DMA writes captured words into a 16 KB ring and never stops; a drain derives
how many words there are from the channel's write address and reads them while
the DMA goes on writing. Both captures run the same code over their own statics,
so the ring, the cursor and the drain are defined once. The drain is given step
by step, so that a DMA write can fall between any two of its steps.
-/

namespace MsxPulse.Firmware

open Library

/-- `BD_RING_BITS` and `TX_RING_BITS`: a 16 KB ring. -/
def ringBits : Nat := 14

/-- `BD_RING_LEN` and `TX_RING_LEN`: 4096 entries. -/
def ringLen : U32 := 1#32 <<< (ringBits - 2)

/-- A ring array, aligned to its own size. -/
structure RingBlock where
  base : U32
  aligned : base.toNat % 16384 = 0

/-- Where `ring[i]` lies. -/
def RingBlock.entry (b : RingBlock) (i : U32) : U32 := b.base + 4#32 * i

/-- A ring with the DMA channel that fills it. -/
structure DmaRing where
  block : RingBlock
  writeAddr : U32
  mem : U32 → U32

/-- A zeroed ring at address zero. -/
def zeroRing : DmaRing := ⟨⟨0#32, rfl⟩, 0#32, fun _ => 0#32⟩

namespace DmaRing

/-- `dma_channel_configure` points the channel at the start of the ring. -/
def arm (r : DmaRing) : DmaRing := { r with writeAddr := r.block.base }

/-- The channel stores one word and advances; only the low `ringBits` bits of its
write address change. -/
def write (r : DmaRing) (word : U32) : DmaRing :=
  { r with
    mem := Function.update r.mem r.writeAddr word
    writeAddr := r.writeAddr - (r.writeAddr &&& ((1#32 <<< ringBits) - 1#32)) +
      ((r.writeAddr + 4#32) &&& ((1#32 <<< ringBits) - 1#32)) }

/-- `ring[rd & (BD_RING_LEN - 1)]` -/
def read (r : DmaRing) (rd : U32) : U32 := r.mem (r.block.entry (rd &&& (ringLen - 1#32)))

end DmaRing

/-- A drain's statics: the read cursor, the running total with the write offset
it was last derived from, and the entries the overrun guard dropped. -/
structure RingCursor where
  rd : U32
  waddrTotal : U32
  waddrPrev : U32
  disc : U32
  deriving DecidableEq

namespace RingCursor

def reset : RingCursor := ⟨0#32, 0#32, 0#32, 0#32⟩

/-- The running total, advanced by the masked delta of the write offset. -/
def dmaTotal (c : RingCursor) (r : DmaRing) : RingCursor :=
  let curOffset := ((r.writeAddr - r.block.base) &&& ((1#32 <<< ringBits) - 1#32)) >>> 2
  let delta := (curOffset - c.waddrPrev) &&& (ringLen - 1#32)
  { c with waddrTotal := c.waddrTotal + delta, waddrPrev := curOffset }

/-- The start of a drain: sample the total, then the overrun guard. Gives the
statics with the loop's `total` and first `rd`. -/
def beginDrain (c : RingCursor) (r : DmaRing) : RingCursor × U32 × U32 :=
  let c := c.dmaTotal r
  let total := c.waddrTotal
  if total - c.rd > ringLen then
    ({ c with disc := c.disc + ((total - c.rd) - ringLen) }, total, total - ringLen)
  else (c, total, c.rd)

end RingCursor

/-- Where core 1 is: outside a drain, or at the head of its read loop. -/
inductive DrainPc where
  | out
  | loop (total rd : U32)
  deriving DecidableEq

/-- A ring, its drain, the drain's consumer, and the observer's records since the
last reset: the words the DMA wrote, how many of them had been written when the
total was last sampled, and the words the drains read. -/
structure RingRun (Consumer : Type) where
  dma : DmaRing
  cursor : RingCursor
  pc : DrainPc
  consumer : Consumer
  written : List U32
  sampled : Nat
  passed : List U32

/-- The DMA stores a word, or core 1 takes its next step. -/
inductive RingEvent where
  | dma (word : U32)
  | cpu

namespace RingRun

variable {Consumer : Type}

/-- The state a reset leaves, whatever the memory and the consumer hold. -/
def armed (dma : DmaRing) (consumer : Consumer) : RingRun Consumer where
  dma := dma.arm
  cursor := .reset
  pc := .out
  consumer := consumer
  written := []
  sampled := 0
  passed := []

def dmaWrite (s : RingRun Consumer) (word : U32) : RingRun Consumer :=
  { s with dma := s.dma.write word, written := s.written ++ [word] }

/-- Core 1 begins a drain. -/
def drainBegin (s : RingRun Consumer) : RingRun Consumer :=
  let start := s.cursor.beginDrain s.dma
  { s with
    cursor := start.1
    pc := .loop start.2.1 start.2.2
    sampled := s.written.length }

/-- Core 1 takes one turn of the read loop, or leaves it. -/
def drainTurn (consume : Consumer → U32 → Consumer) (s : RingRun Consumer) (total rd : U32) :
    RingRun Consumer :=
  if rd = total then { s with cursor := { s.cursor with rd := rd }, pc := .out }
  else
    let raw := s.dma.read rd
    { s with
      pc := .loop total (rd + 1#32)
      consumer := consume s.consumer raw
      passed := s.passed ++ [raw] }

def cpuStep (consume : Consumer → U32 → Consumer) (s : RingRun Consumer) : RingRun Consumer :=
  match s.pc with
  | .out => s.drainBegin
  | .loop total rd => s.drainTurn consume total rd

/-- DMA writes and drain steps in any order. -/
def machine (consume : Consumer → U32 → Consumer) : Machine (RingRun Consumer) RingEvent Empty where
  step
    | s, .dma word => (s.dmaWrite word, [])
    | s, .cpu => (s.cpuStep consume, [])

end RingRun

/-! ## Addresses and offsets as numbers -/

theorem toNat_and_byteMask (x : U32) :
    (x &&& ((1#32 <<< ringBits) - 1#32)).toNat = x.toNat % 16384 := by
  rw [BitVec.toNat_and]
  exact Nat.and_two_pow_sub_one_eq_mod x.toNat 14

theorem toNat_and_lenMask (x : U32) : (x &&& (ringLen - 1#32)).toNat = x.toNat % 4096 := by
  rw [BitVec.toNat_and]
  exact Nat.and_two_pow_sub_one_eq_mod x.toNat 12

namespace RingBlock

variable (b : RingBlock)

theorem base_bound : b.base.toNat + 16384 ≤ 2 ^ 32 := by
  have aligned := b.aligned
  have inside := b.base.isLt
  omega

theorem entry_toNat {j : Nat} (inside : j < 4096) :
    (b.entry (BitVec.ofNat 32 j)).toNat = b.base.toNat + 4 * j := by
  have room := b.base_bound
  unfold entry
  rw [BitVec.toNat_add, BitVec.toNat_mul, BitVec.toNat_ofNat]
  simp
  omega

theorem entry_ne {i j : Nat} (hi : i < 4096) (hj : j < 4096) (apart : i ≠ j) :
    b.entry (BitVec.ofNat 32 i) ≠ b.entry (BitVec.ofNat 32 j) := by
  intro same
  have values := congrArg BitVec.toNat same
  rw [b.entry_toNat hi, b.entry_toNat hj] at values
  omega

theorem base_eq_entry : b.base = b.entry (BitVec.ofNat 32 0) := by
  simp [entry]

end RingBlock

namespace DmaRing

/-- The channel has written exactly this history since it was armed. -/
structure Tracks (r : DmaRing) (history : List U32) : Prop where
  address : r.writeAddr = r.block.entry (BitVec.ofNat 32 (history.length % 4096))
  held : Ring.Holds 4096 (fun j => r.mem (r.block.entry (BitVec.ofNat 32 j))) history

theorem arm_tracks (r : DmaRing) : r.arm.Tracks [] where
  address := r.block.base_eq_entry
  held := .nil _

theorem Tracks.write {r : DmaRing} {history : List U32} (t : r.Tracks history) (word : U32) :
    (r.write word).Tracks (history ++ [word]) where
  address := by
    have slot : history.length % 4096 < 4096 := Nat.mod_lt _ (by decide)
    have next : (history.length + 1) % 4096 < 4096 := Nat.mod_lt _ (by decide)
    have at_ := congrArg BitVec.toNat t.address
    have room := r.block.base_bound
    have aligned := r.block.aligned
    rw [r.block.entry_toNat slot] at at_
    apply BitVec.eq_of_toNat_eq
    show (r.writeAddr - (r.writeAddr &&& ((1#32 <<< ringBits) - 1#32)) +
      ((r.writeAddr + 4#32) &&& ((1#32 <<< ringBits) - 1#32))).toNat =
      (r.block.entry _).toNat
    rw [List.length_append, List.length_singleton, r.block.entry_toNat next, BitVec.toNat_add,
      BitVec.toNat_sub, toNat_and_byteMask, toNat_and_byteMask, BitVec.toNat_add, at_]
    simp
    omega
  held := by
    have slot : history.length % 4096 < 4096 := Nat.mod_lt _ (by decide)
    refine t.held.push ?_ ?_ (by decide)
    · show Function.update r.mem r.writeAddr word (r.block.entry _) = word
      rw [← t.address, Function.update_self]
    · intro j inside other
      show Function.update r.mem r.writeAddr word (r.block.entry _) = _
      rw [t.address, Function.update_of_ne (r.block.entry_ne inside slot other)]

/-- A read returns the word of its position while that has not been overwritten. -/
theorem Tracks.read {r : DmaRing} {history : List U32} (t : r.Tracks history) {i : Nat}
    (inside : i < history.length) (recent : history.length ≤ i + 4096) :
    r.read (BitVec.ofNat 32 i) = history[i] := by
  have masked : (BitVec.ofNat 32 i &&& (ringLen - 1#32)) = BitVec.ofNat 32 (i % 4096) := by
    apply BitVec.eq_of_toNat_eq
    rw [toNat_and_lenMask, BitVec.toNat_ofNat, BitVec.toNat_ofNat]
    omega
  unfold DmaRing.read
  rw [masked]
  exact t.held i inside recent

/-- The write offset that `dmaTotal` computes. -/
theorem Tracks.offset {r : DmaRing} {history : List U32} (t : r.Tracks history) :
    ((r.writeAddr - r.block.base) &&& ((1#32 <<< ringBits) - 1#32)) >>> 2 =
      BitVec.ofNat 32 (history.length % 4096) := by
  have slot : history.length % 4096 < 4096 := Nat.mod_lt _ (by decide)
  have at_ := congrArg BitVec.toNat t.address
  have room := r.block.base_bound
  rw [r.block.entry_toNat slot] at at_
  apply BitVec.eq_of_toNat_eq
  rw [BitVec.toNat_ushiftRight, toNat_and_byteMask, BitVec.toNat_sub, at_, BitVec.toNat_ofNat,
    Nat.shiftRight_eq_div_pow]
  omega

end DmaRing

namespace RingCursor

theorem delta_lt (x : U32) : (x &&& (ringLen - 1#32)).toNat < 4096 := by
  rw [toNat_and_lenMask]
  exact Nat.mod_lt _ (by decide)

/-- A drain that begins where the last one ended never trips the overrun guard:
the masked delta is below one ring however many words were written. -/
theorem beginDrain_eq {c : RingCursor} (r : DmaRing) (caughtUp : c.rd = c.waddrTotal) :
    c.beginDrain r = (c.dmaTotal r, (c.dmaTotal r).waddrTotal, c.rd) := by
  have behind : (c.dmaTotal r).waddrTotal - (c.dmaTotal r).rd =
      (((r.writeAddr - r.block.base) &&& ((1#32 <<< ringBits) - 1#32)) >>> 2 - c.waddrPrev) &&&
        (ringLen - 1#32) := by
    simp only [dmaTotal, caughtUp]
    rw [BitVec.add_comm, BitVec.add_sub_cancel]
  have quiet : ¬ (c.dmaTotal r).waddrTotal - (c.dmaTotal r).rd > ringLen := by
    rw [behind, gt_iff_lt, BitVec.lt_def]
    exact Nat.not_lt.mpr (Nat.le_of_lt (delta_lt _))
  unfold beginDrain
  simp only [quiet, if_false]
  rfl

/-- Less than a ring after the last sample, the total counts every word written. -/
theorem dmaTotal_eq {c : RingCursor} {r : DmaRing} {history : List U32} {sampled : Nat}
    (t : r.Tracks history) (total : c.waddrTotal = BitVec.ofNat 32 sampled)
    (prev : c.waddrPrev = BitVec.ofNat 32 (sampled % 4096)) (before : sampled ≤ history.length)
    (near : history.length < sampled + 4096) :
    c.dmaTotal r = { c with
      waddrTotal := BitVec.ofNat 32 history.length
      waddrPrev := BitVec.ofNat 32 (history.length % 4096) } := by
  have delta : ((BitVec.ofNat 32 (history.length % 4096) - BitVec.ofNat 32 (sampled % 4096)) &&&
      (ringLen - 1#32)) = BitVec.ofNat 32 (history.length - sampled) := by
    apply BitVec.eq_of_toNat_eq
    have masked : (2 ^ 32 - sampled % 4096 + history.length % 4096) % 2 ^ 32 % 4096 =
        history.length - sampled :=
      Ring.masked_delta (by decide) (by decide) before near
    rw [toNat_and_lenMask, BitVec.toNat_sub, BitVec.toNat_ofNat, BitVec.toNat_ofNat,
      BitVec.toNat_ofNat]
    omega
  unfold dmaTotal
  simp only [t.offset, prev, delta, total]
  rw [← BitVec.ofNat_add, Nat.add_sub_cancel' before]

end RingCursor

end MsxPulse.Firmware
