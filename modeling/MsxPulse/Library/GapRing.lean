import Mathlib.Data.List.Basic
import Mathlib.Logic.Function.Basic

/-!
# Rings that tell full from empty by a gap

A producer stores at `writeIdx` and a consumer takes from `readIdx`, both modulo
the size. Equal indices mean empty, so one slot always stays free. The slots
between the two indices, in order, are the queue that the ring stands for:
storing appends to it, taking removes its head.
-/

namespace MsxPulse.Library

universe u

structure GapRing (w : Nat) (Slot : Type u) where
  lines : Nat → Slot
  writeIdx : BitVec w
  readIdx : BitVec w

namespace GapRing

variable {w : Nat} {Slot : Type u} {size : BitVec w}

def next (size i : BitVec w) : BitVec w := (i + 1#w) % size

/-- Both indices point into the ring. -/
structure Bounded (size : BitVec w) (r : GapRing w Slot) : Prop where
  write : r.writeIdx < size
  read : r.readIdx < size

def room (size : BitVec w) (r : GapRing w Slot) : Bool := next size r.writeIdx != r.readIdx

def pending (r : GapRing w Slot) : Bool := r.readIdx != r.writeIdx

def slot (r : GapRing w Slot) : Slot := r.lines r.readIdx.toNat

/-- Write into the slot at the write index, whatever it held, and advance. -/
def store (size : BitVec w) (f : Slot → Slot) (r : GapRing w Slot) : GapRing w Slot :=
  { r with
    lines := Function.update r.lines r.writeIdx.toNat (f (r.lines r.writeIdx.toNat))
    writeIdx := next size r.writeIdx }

def drop (size : BitVec w) (r : GapRing w Slot) : GapRing w Slot :=
  { r with readIdx := next size r.readIdx }

/-- How many slots the write index is ahead of the read index. -/
def count (size : BitVec w) (r : GapRing w Slot) : Nat :=
  (r.writeIdx.toNat + size.toNat - r.readIdx.toNat) % size.toNat

/-- The slots from the read index up to the write index. -/
def queued (size : BitVec w) (r : GapRing w Slot) : List Slot :=
  (List.range (r.count size)).map fun i => r.lines ((r.readIdx.toNat + i) % size.toNat)

@[simp] theorem length_queued (r : GapRing w Slot) : (r.queued size).length = r.count size := by
  simp [queued]

theorem toNat_next {i : BitVec w} (inside : i < size) :
    (next size i).toNat = if i.toNat + 1 = size.toNat then 0 else i.toNat + 1 := by
  have below : i.toNat < size.toNat := inside
  have wide := size.isLt
  have one : (1#w).toNat = 1 := by
    rw [BitVec.toNat_ofNat]
    exact Nat.mod_eq_of_lt (by omega)
  have sum : (i + 1#w).toNat = i.toNat + 1 := by
    rw [BitVec.toNat_add, one]
    exact Nat.mod_eq_of_lt (by omega)
  rw [next, BitVec.toNat_umod, sum]
  split
  · next wraps => rw [wraps, Nat.mod_self]
  · exact Nat.mod_eq_of_lt (by omega)

theorem next_lt {i : BitVec w} (inside : i < size) : next size i < size := by
  have below : i.toNat < size.toNat := inside
  rw [BitVec.lt_def, toNat_next inside]
  split <;> omega

variable {r : GapRing w Slot}

/-- The count without the modulus. -/
theorem count_eq (h : r.Bounded size) :
    r.count size = if r.readIdx.toNat ≤ r.writeIdx.toNat then r.writeIdx.toNat - r.readIdx.toNat
      else r.writeIdx.toNat + size.toNat - r.readIdx.toNat := by
  have write : r.writeIdx.toNat < size.toNat := h.write
  have read : r.readIdx.toNat < size.toNat := h.read
  unfold count
  split
  · next ahead =>
    have shifted : r.writeIdx.toNat + size.toNat - r.readIdx.toNat =
        r.writeIdx.toNat - r.readIdx.toNat + size.toNat := by omega
    rw [shifted, Nat.add_mod_right, Nat.mod_eq_of_lt (by omega)]
  · exact Nat.mod_eq_of_lt (by omega)

theorem count_lt (h : r.Bounded size) : r.count size < size.toNat := by
  have read : r.readIdx.toNat < size.toNat := h.read
  exact Nat.mod_lt _ (by omega)

theorem room_iff (h : r.Bounded size) : r.room size = true ↔ r.count size + 1 < size.toNat := by
  have write : r.writeIdx.toNat < size.toNat := h.write
  have read : r.readIdx.toNat < size.toNat := h.read
  rw [room, bne_iff_ne, ne_eq, ← BitVec.toNat_inj, toNat_next h.write, count_eq h]
  split <;> split <;> omega

theorem pending_iff (h : r.Bounded size) : r.pending = true ↔ 0 < r.count size := by
  have write : r.writeIdx.toNat < size.toNat := h.write
  have read : r.readIdx.toNat < size.toNat := h.read
  rw [pending, bne_iff_ne, ne_eq, ← BitVec.toNat_inj, count_eq h]
  split <;> omega

theorem Bounded.store (h : r.Bounded size) (f : Slot → Slot) : (r.store size f).Bounded size :=
  ⟨next_lt h.write, h.read⟩

theorem Bounded.drop (h : r.Bounded size) : (r.drop size).Bounded size :=
  ⟨h.write, next_lt h.read⟩

theorem count_store (h : r.Bounded size) (free : r.room size = true) (f : Slot → Slot) :
    (r.store size f).count size = r.count size + 1 := by
  have write : r.writeIdx.toNat < size.toNat := h.write
  have read : r.readIdx.toNat < size.toNat := h.read
  have space := (room_iff h).mp free
  rw [count_eq h] at space
  rw [count_eq (h.store f), count_eq h]
  simp only [GapRing.store, toNat_next h.write]
  split_ifs at space ⊢ <;> omega

theorem count_drop (h : r.Bounded size) (some : 0 < r.count size) :
    (r.drop size).count size + 1 = r.count size := by
  have write : r.writeIdx.toNat < size.toNat := h.write
  have read : r.readIdx.toNat < size.toNat := h.read
  rw [count_eq h] at some
  rw [count_eq h.drop, count_eq h]
  simp only [GapRing.drop, toNat_next h.read]
  split_ifs at some ⊢ <;> omega

theorem position (h : r.Bounded size) :
    (r.readIdx.toNat + r.count size) % size.toNat = r.writeIdx.toNat := by
  have write : r.writeIdx.toNat < size.toNat := h.write
  have read : r.readIdx.toNat < size.toNat := h.read
  rw [count_eq h]
  split
  · rw [Nat.add_sub_cancel' ‹_›, Nat.mod_eq_of_lt write]
  · rw [Nat.add_sub_cancel' (by omega), Nat.add_mod_right, Nat.mod_eq_of_lt write]

theorem position_ne (h : r.Bounded size) {i : Nat} (before : i < r.count size) :
    (r.readIdx.toNat + i) % size.toNat ≠ r.writeIdx.toNat := by
  have write : r.writeIdx.toNat < size.toNat := h.write
  have read : r.readIdx.toNat < size.toNat := h.read
  have small := count_lt h
  rw [count_eq h] at before small
  by_cases inside : r.readIdx.toNat + i < size.toNat
  · rw [Nat.mod_eq_of_lt inside]
    split_ifs at before <;> omega
  · rw [Nat.mod_eq_sub_mod (by omega), Nat.mod_eq_of_lt (by omega)]
    split_ifs at before <;> omega

/-- Storing appends the written slot to the queue. -/
theorem queued_store (h : r.Bounded size) (free : r.room size = true) (f : Slot → Slot) :
    (r.store size f).queued size = r.queued size ++ [f (r.lines r.writeIdx.toNat)] := by
  unfold queued
  rw [count_store h free, List.range_succ, List.map_append, List.map_singleton]
  congr 1
  · apply List.map_congr_left
    intro i hi
    exact Function.update_of_ne (position_ne h (List.mem_range.mp hi)) _ _
  · have last : (r.readIdx.toNat + r.count size) % size.toNat = r.writeIdx.toNat := position h
    simp [store, last]

/-- Taking removes the head of the queue, which is the slot at the read index. -/
theorem queued_drop (h : r.Bounded size) (some : 0 < r.count size) :
    r.queued size = r.slot :: (r.drop size).queued size := by
  have read : r.readIdx.toNat < size.toNat := h.read
  unfold queued
  rw [← count_drop h some, List.range_succ_eq_map, List.map_cons, List.map_map]
  congr 1
  · simp [slot, Nat.mod_eq_of_lt read]
  · apply List.map_congr_left
    intro i _
    have shift : ((next size r.readIdx).toNat + i) % size.toNat =
        (r.readIdx.toNat + (i + 1)) % size.toNat := by
      rw [toNat_next h.read]
      split
      · next wraps =>
        have whole : r.readIdx.toNat + (i + 1) = size.toNat + (0 + i) := by omega
        rw [whole, Nat.add_mod_left]
      · rw [Nat.add_assoc, Nat.add_comm 1 i]
    exact congrArg r.lines shift.symm

theorem queued_empty (same : r.writeIdx = r.readIdx) : r.queued size = [] := by
  have none : r.count size = 0 := by
    unfold count
    rw [same, Nat.add_sub_cancel_left, Nat.mod_self]
  rw [← List.length_eq_zero_iff, length_queued, none]

end GapRing

end MsxPulse.Library
