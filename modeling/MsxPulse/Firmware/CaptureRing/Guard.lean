import MsxPulse.Firmware.BootCapture.Health
import MsxPulse.Firmware.TxnCapture

/-!
# The overrun guard never fires

A drain leaves the read cursor at the total, so at the guard of the next one the two are
apart by the masked delta alone: less than a ring, whatever the channel has written in
between. Words that are lost are therefore never counted as discarded.
-/

namespace MsxPulse.Firmware

open Library RingRun

namespace RingCursor

variable {c : RingCursor}

/-- `total - rd` at the guard. -/
def lag (c : RingCursor) (r : DmaRing) : U32 := (c.dmaTotal r).waddrTotal - c.rd

/-- The total is in step with the write offset that it was last derived from. -/
def InStep (c : RingCursor) : Prop := c.waddrTotal.toNat % 4096 = c.waddrPrev.toNat

theorem lag_lt (caughtUp : c.rd = c.waddrTotal) (r : DmaRing) : (c.lag r).toNat < 4096 := by
  have behind : c.lag r =
      (((r.writeAddr - r.block.base) &&& ((1#32 <<< ringBits) - 1#32)) >>> 2 - c.waddrPrev) &&&
        (ringLen - 1#32) := by
    rw [lag, caughtUp, dmaTotal, BitVec.add_comm, BitVec.add_sub_cancel]
  rw [behind]
  exact delta_lt _

/-- Sampling keeps them in step, wherever the channel has got to. -/
theorem InStep.dmaTotal (h : c.InStep) (r : DmaRing) : (c.dmaTotal r).InStep := by
  have sum (total cur prev : U32) (small : cur.toNat < 4096)
      (same : total.toNat % 4096 = prev.toNat) :
      (total + ((cur - prev) &&& (ringLen - 1#32))).toNat % 4096 = cur.toNat := by
    rw [BitVec.toNat_add, toNat_and_lenMask, BitVec.toNat_sub]
    omega
  refine sum _ _ _ ?_ h
  rw [BitVec.toNat_ushiftRight, toNat_and_byteMask, Nat.shiftRight_eq_div_pow]
  omega

end RingCursor

namespace RingRun

variable {Consumer : Type} (consume : Consumer → U32 → Consumer)

/-! ## A whole drain -/

/-- Turns of the read loop. `arriving` tells what the channel stores before each, by the
number of turns that are left after it. -/
def turns (arriving : Nat → List U32) : Nat → RingRun Consumer → RingRun Consumer
  | 0, s => s
  | n + 1, s => turns arriving n (((arriving n).foldl dmaWrite s).cpuStep consume)

/-- A drain, with a turn for every word and the one that leaves the loop. -/
def drain (arriving : Nat → List U32) (s : RingRun Consumer) : RingRun Consumer :=
  match s.drainBegin.pc with
  | .out => s.drainBegin
  | .loop total rd => turns consume arriving ((total - rd).toNat + 1) s.drainBegin

variable {consume} {s : RingRun Consumer}

theorem foldl_dmaWrite (words : List U32) (s : RingRun Consumer) :
    ∃ dma written, words.foldl dmaWrite s = { s with dma, written } := by
  induction words generalizing s with
  | nil => exact ⟨s.dma, s.written, rfl⟩
  | cons word words ih =>
    obtain ⟨dma, written, same⟩ := ih (s.dmaWrite word)
    exact ⟨dma, written, same⟩

variable (consume) in
/-- The loop reads `total - rd` words and leaves the cursor at the total. -/
theorem turns_loop (arriving : Nat → List U32) {total rd : U32} (loop : s.pc = .loop total rd) :
    (turns consume arriving ((total - rd).toNat + 1) s).pc = .out ∧
      (turns consume arriving ((total - rd).toNat + 1) s).cursor = { s.cursor with rd := total } ∧
      (turns consume arriving ((total - rd).toNat + 1) s).passed.length =
        s.passed.length + (total - rd).toNat := by
  generalize left : (total - rd).toNat = n
  induction n generalizing s rd with
  | zero =>
    obtain rfl : rd = total := by bv_omega
    obtain ⟨dma, written, same⟩ := foldl_dmaWrite (arriving 0) s
    simp only [turns, same, cpuStep, loop, drainTurn, if_true]
    exact ⟨trivial, trivial, rfl⟩
  | succ n ih =>
    have more : rd ≠ total := by
      rintro rfl
      rw [BitVec.sub_self] at left
      cases left
    have next : (total - (rd + 1#32)).toNat = n := by bv_omega
    obtain ⟨dma, written, same⟩ := foldl_dmaWrite (arriving (n + 1)) s
    rw [turns, same, cpuStep]
    simp only [loop]
    rw [drainTurn, if_neg more]
    obtain ⟨out, cursor, passed⟩ := ih (s := { s with
      dma, written
      pc := .loop total (rd + 1#32)
      consumer := consume s.consumer (dma.read rd)
      passed := s.passed ++ [dma.read rd] }) rfl next
    refine ⟨out, cursor, passed.trans ?_⟩
    simp only [List.length_append, List.length_singleton]
    omega

/-- Between calls: the cursor is at the total, the total in step, and nothing discarded. -/
structure Guarded (s : RingRun Consumer) : Prop where
  out : s.pc = .out
  caughtUp : s.cursor.rd = s.cursor.waddrTotal
  inStep : s.cursor.InStep
  disc : s.cursor.disc = 0#32

theorem armed_guarded (dma : DmaRing) (consumer : Consumer) : (armed dma consumer).Guarded :=
  ⟨rfl, rfl, rfl, rfl⟩

theorem Guarded.dmaWrite (h : s.Guarded) (word : U32) : (s.dmaWrite word).Guarded :=
  ⟨h.out, h.caughtUp, h.inStep, h.disc⟩

/-- A drain passes the guard by, and reads what the guard was about to compare. -/
theorem Guarded.drain_eq (h : s.Guarded) (consume : Consumer → U32 → Consumer)
    (arriving : Nat → List U32) :
    (s.drain consume arriving).Guarded ∧
      (s.drain consume arriving).passed.length =
        s.passed.length + (s.cursor.lag s.dma).toNat := by
  have begun : s.drainBegin = { s with
      cursor := s.cursor.dmaTotal s.dma
      pc := .loop (s.cursor.dmaTotal s.dma).waddrTotal s.cursor.rd
      sampled := s.written.length } := by
    rw [drainBegin, RingCursor.beginDrain_eq s.dma h.caughtUp]
  have loop : s.drainBegin.pc =
      .loop (s.cursor.dmaTotal s.dma).waddrTotal s.cursor.rd := by rw [begun]
  obtain ⟨out, cursor, passed⟩ := turns_loop consume arriving loop
  unfold drain
  simp only [loop]
  refine ⟨⟨out, ?_, ?_, ?_⟩, ?_⟩
  · rw [cursor, begun]
  · rw [cursor, begun]
    exact h.inStep.dmaTotal s.dma
  · rw [cursor, begun]
    exact h.disc
  · rw [passed, begun]
    rfl

/-- At the guard of the next drain, and after every drain. -/
structure GuardDead (consume : Consumer → U32 → Consumer) (s : RingRun Consumer) : Prop where
  lag : (s.cursor.lag s.dma).toNat ≤ 4095
  quiet : ¬s.cursor.lag s.dma > ringLen
  caughtUp : s.cursor.rd = s.cursor.waddrTotal
  offset : s.cursor.waddrTotal.toNat % 4096 = s.cursor.waddrPrev.toNat
  fed : ∀ arriving, (s.drain consume arriving).pc = .out ∧
    (s.drain consume arriving).passed.length ≤ s.passed.length + 4095
  disc : s.cursor.disc = 0#32

theorem Guarded.guardDead (h : s.Guarded) (consume : Consumer → U32 → Consumer) :
    s.GuardDead consume := by
  have lag := RingCursor.lag_lt h.caughtUp s.dma
  refine ⟨Nat.le_of_lt_succ lag, ?_, h.caughtUp, h.inStep, fun arriving => ?_, h.disc⟩
  · rw [gt_iff_lt, BitVec.lt_def]
    exact Nat.not_lt.mpr lag.le
  · obtain ⟨drained, passed⟩ := h.drain_eq consume arriving
    refine ⟨drained.out, ?_⟩
    omega

end RingRun

/-! ## Resets and drains of the three rings -/

/-- The three capture rings. -/
structure CaptureRings where
  mem : RingRun (List BootBusEvent)
  io : RingRun (List BootBusEvent)
  txn : RingRun BusIntegrity

/-- A word that a channel stores between two calls, or a call. A drain comes with the words
that are stored in a ring while it reads this ring; what a ring gets while the other one is
read counts as stored before or after the call. -/
inductive CaptureCall where
  | memWord (word : U32)
  | ioWord (word : U32)
  | txnWord (word : U32)
  | bootCaptureReset
  | txnCaptureReset
  | bootCaptureDrain (memArriving ioArriving : Nat → List U32)
  | txnCaptureDrain (arriving : Nat → List U32)

namespace CaptureRings

open BootCapture TxnCapture

/-- After the inits. -/
def initial (mem io txn : DmaRing) : CaptureRings := ⟨armed mem [], armed io [], armed txn .reset⟩

def machine : Machine CaptureRings CaptureCall Empty where
  step
    | s, .memWord word => ({ s with mem := s.mem.dmaWrite word }, [])
    | s, .ioWord word => ({ s with io := s.io.dmaWrite word }, [])
    | s, .txnWord word => ({ s with txn := s.txn.dmaWrite word }, [])
    | s, .bootCaptureReset =>
      ({ s with mem := armed s.mem.dma s.mem.consumer, io := armed s.io.dma s.io.consumer }, [])
    | s, .txnCaptureReset => ({ s with txn := armed s.txn.dma s.txn.consumer }, [])
    | s, .bootCaptureDrain memArriving ioArriving =>
      ({ s with
          mem := s.mem.drain (decodeInto decodeMem) memArriving
          io := s.io.drain (decodeInto decodeIo) ioArriving }, [])
    | s, .txnCaptureDrain arriving => ({ s with txn := s.txn.drain feedRaw arriving }, [])

/-- The discarded count of `boot_capture_health`. -/
def discarded (s : CaptureRings) : U32 := s.mem.cursor.disc + s.io.cursor.disc

structure Guarded (s : CaptureRings) : Prop where
  mem : s.mem.Guarded
  io : s.io.Guarded
  txn : s.txn.Guarded

theorem Guarded.step {s : CaptureRings} (h : s.Guarded) (call : CaptureCall) :
    (machine.step s call).1.Guarded := by
  cases call with
  | memWord word => exact ⟨h.mem.dmaWrite word, h.io, h.txn⟩
  | ioWord word => exact ⟨h.mem, h.io.dmaWrite word, h.txn⟩
  | txnWord word => exact ⟨h.mem, h.io, h.txn.dmaWrite word⟩
  | bootCaptureReset => exact ⟨armed_guarded _ _, armed_guarded _ _, h.txn⟩
  | txnCaptureReset => exact ⟨h.mem, h.io, armed_guarded _ _⟩
  | bootCaptureDrain memArriving ioArriving =>
    exact ⟨(h.mem.drain_eq _ memArriving).1, (h.io.drain_eq _ ioArriving).1, h.txn⟩
  | txnCaptureDrain arriving => exact ⟨h.mem, h.io, (h.txn.drain_eq _ arriving).1⟩

theorem guarded_final (mem io txn : DmaRing) (calls : List CaptureCall) :
    (machine.final (initial mem io txn) calls).Guarded :=
  machine.final_preserved Guarded (fun _ call h => h.step call)
    ⟨armed_guarded _ _, armed_guarded _ _, armed_guarded _ _⟩ calls

/-- The overrun guard is unreachable: after every run of resets and drains, with any number
of words stored between and during them, the next drain of a ring finds the total at most
4095 ahead of the cursor, the last one left them equal, each feeds at most 4095 words, and
nothing is counted as discarded. -/
theorem overrunGuard_dead (mem io txn : DmaRing) (calls : List CaptureCall) :
    let s := machine.final (initial mem io txn) calls
    s.mem.GuardDead (decodeInto decodeMem) ∧ s.io.GuardDead (decodeInto decodeIo) ∧
      s.txn.GuardDead feedRaw ∧ s.discarded = 0#32 := by
  have h := guarded_final mem io txn calls
  refine ⟨h.mem.guardDead _, h.io.guardDead _, h.txn.guardDead _, ?_⟩
  rw [discarded, h.mem.disc, h.io.disc]
  rfl

end CaptureRings

end MsxPulse.Firmware
