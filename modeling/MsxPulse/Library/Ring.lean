import Mathlib.Data.List.Basic
import Mathlib.Logic.Function.Basic

/-!
# Rings that hold the end of a history

A producer appends to an unbounded history and stores each item in slot
`position % size`. The slots then hold the last `size` items. A reader that keeps
only masked positions recovers how far the producer moved as long as it moved by
less than one whole ring.
-/

namespace MsxPulse.Library.Ring

universe u

variable {Item : Type u} {size : Nat}

/-- Different positions less than a ring apart have different slots. -/
theorem slot_ne {i j : Nat} (before : i < j) (near : j < i + size) : i % size ≠ j % size := by
  intro same
  have apart : (j - i) % size = 0 := Nat.sub_mod_eq_zero_of_mod_eq same.symm
  rw [Nat.mod_eq_of_lt (by omega)] at apart
  omega

/-- The slots hold the last `size` items of the history. -/
def Holds (size : Nat) (slots : Nat → Item) (history : List Item) : Prop :=
  ∀ i (inside : i < history.length), history.length ≤ i + size →
    slots (i % size) = history[i]

theorem Holds.nil (slots : Nat → Item) : Holds size slots [] := by
  intro i inside
  exact absurd inside (Nat.not_lt_zero i)

/-- Storing the next item keeps what the ring holds, less the item it overwrites. -/
theorem Holds.push {slots slots' : Nat → Item} {history : List Item}
    (held : Holds size slots history) {item : Item}
    (stored : slots' (history.length % size) = item)
    (kept : ∀ j, j < size → j ≠ history.length % size → slots' j = slots j)
    (nonempty : 0 < size) : Holds size slots' (history ++ [item]) := by
  intro i inside recent
  rw [List.length_append, List.length_singleton] at inside recent
  by_cases last : i = history.length
  · subst last
    simpa using stored
  · have earlier : i < history.length := by omega
    have other : i % size ≠ history.length % size := slot_ne earlier (by omega)
    rw [kept _ (Nat.mod_lt i nonempty) other, List.getElem_append_left earlier]
    exact held i earlier (by omega)

/-- The masked difference of two masked positions is their distance, if that is
less than a ring; the counter's own width is a multiple of the ring. -/
theorem masked_delta {width before now : Nat} (divides : size ∣ width) (wide : 0 < width)
    (forward : before ≤ now) (near : now < before + size) :
    (width - before % size + now % size) % width % size = now - before := by
  obtain ⟨count, rfl⟩ := divides
  have positive : 0 < size := by omega
  have small : before % size < size := Nat.mod_lt _ positive
  have fits : size ≤ size * count := Nat.le_mul_of_pos_right size (Nat.pos_of_mul_pos_left wide)
  have split : size * (before / size) + before % size = before := Nat.div_add_mod before size
  rw [Nat.mod_mul_right_mod, Nat.add_mod_mod]
  have total : size * count - before % size + now =
      size * (count + before / size) + (now - before) := by
    rw [Nat.mul_add]
    omega
  rw [total, Nat.mul_add_mod, Nat.mod_eq_of_lt (by omega)]

end MsxPulse.Library.Ring
