import MsxPulse.Library.Z80

/-!
# Assembling a listing

A listing whose labels are distinct, and which fits in memory, stands where it is assembled.
-/

namespace MsxPulse.Library.Z80

variable {L : Type}

def Line.size : Line L → Nat
  | .label _ => 0
  | .op i => i.size

def size (lines : List (Line L)) : Nat := (lines.map Line.size).sum

def labels : List (Line L) → List L
  | [] => []
  | .label l :: lines => l :: labels lines
  | .op _ :: lines => labels lines

/-- The instruction at an address of a listing. -/
def lineAt : Word → List (Line L) → Word → Option (Instr L)
  | _, [], _ => none
  | start, .label _ :: lines, a => lineAt start lines a
  | start, .op i :: lines, a =>
    if a = start then some i else lineAt (start + BitVec.ofNat 16 i.size) lines a

/-- The address of a label; a label that the listing lacks is put at its end. -/
def addrOf [DecidableEq L] : Word → List (Line L) → L → Word
  | start, [], _ => start
  | start, .label l :: lines, x => if x = l then start else addrOf start lines x
  | start, .op i :: lines, x => addrOf (start + BitVec.ofNat 16 i.size) lines x

def assemble [DecidableEq L] (start : Word) (lines : List (Line L)) : Program L :=
  ⟨lineAt start lines, addrOf start lines⟩

theorem Instr.size_pos (i : Instr L) : 0 < i.size := by
  cases i with
  | ld r src => cases src <;> exact Nat.succ_pos _
  | arith op src => cases src <;> exact Nat.succ_pos _
  | _ => exact Nat.succ_pos _

theorem size_cons (line : Line L) (lines : List (Line L)) :
    size (line :: lines) = line.size + size lines := by
  rw [size, List.map_cons, List.sum_cons]
  rfl

theorem size_append (first second : List (Line L)) :
    size (first ++ second) = size first + size second := by
  rw [size, List.map_append, List.sum_append]
  rfl

theorem labels_append (first second : List (Line L)) :
    labels (first ++ second) = labels first ++ labels second := by
  induction first with
  | nil => rfl
  | cons line first ih =>
    cases line with
    | label l => exact congrArg (l :: ·) ih
    | op i => exact ih

/-- A label that does not stand in the first lines is looked for after them. -/
theorem addrOf_append [DecidableEq L] {first : List (Line L)} {x : L} (later : x ∉ labels first) (start : Word)
    (second : List (Line L)) :
    addrOf start (first ++ second) x = addrOf (start + BitVec.ofNat 16 (size first)) second x := by
  induction first generalizing start with
  | nil => simp [size]
  | cons line first ih =>
    cases line with
    | label l =>
      rw [labels, List.mem_cons, not_or] at later
      rw [List.cons_append, addrOf, if_neg later.1, ih later.2, size_cons, Line.size, Nat.zero_add]
    | op i =>
      rw [List.cons_append, addrOf, ih later, size_cons, Line.size, BitVec.ofNat_add,
        BitVec.add_assoc]

/-- An address past the first lines is looked for after them. -/
theorem lineAt_append {first : List (Line L)} {n : Nat} (past : size first ≤ n) (small : n < 65536)
    (start : Word) (second : List (Line L)) :
    lineAt start (first ++ second) (start + BitVec.ofNat 16 n) =
      lineAt (start + BitVec.ofNat 16 (size first)) second (start + BitVec.ofNat 16 n) := by
  induction first generalizing start n with
  | nil => simp [size]
  | cons line first ih =>
    rw [size_cons] at past
    cases line with
    | label l =>
      rw [List.cons_append, lineAt, size_cons, Line.size, Nat.zero_add]
      exact ih (Nat.le_of_add_left_le past) small start
    | op i =>
      have positive := i.size_pos
      simp only [Line.size] at past
      have other : start + BitVec.ofNat 16 n ≠ start := by
        intro same
        have bound := start.isLt
        rw [← BitVec.toNat_inj, BitVec.toNat_add, BitVec.toNat_ofNat] at same
        omega
      have split : start + BitVec.ofNat 16 n =
          start + BitVec.ofNat 16 i.size + BitVec.ofNat 16 (n - i.size) := by
        rw [BitVec.add_assoc, ← BitVec.ofNat_add, Nat.add_sub_cancel' (by omega)]
      rw [List.cons_append, lineAt, if_neg other, size_cons, Line.size, BitVec.ofNat_add,
        ← BitVec.add_assoc, split]
      exact ih (by omega) (by omega) _

/-- Any part of a listing stands behind what comes before it. -/
theorem assemble_placed_part [DecidableEq L] (start : Word) (first second : List (Line L))
    (distinct : (labels (first ++ second)).Nodup) (fits : size (first ++ second) ≤ 65536) :
    (assemble start (first ++ second)).Placed (start + BitVec.ofNat 16 (size first)) second := by
  induction second generalizing first with
  | nil => trivial
  | cons line second ih =>
    have whole : first ++ line :: second = (first ++ [line]) ++ second := by
      rw [List.append_assoc, List.singleton_append]
    have rest := ih (first ++ [line]) (whole ▸ distinct) (whole ▸ fits)
    rw [← whole, size_append, BitVec.ofNat_add, ← BitVec.add_assoc] at rest
    cases line with
    | label l =>
      have apart : l ∉ labels first := by
        rw [labels_append, List.nodup_append] at distinct
        exact fun mem => distinct.2.2 l mem l List.mem_cons_self rfl
      refine ⟨(addrOf_append apart start _).trans (if_pos rfl), ?_⟩
      rw [show size [Line.label l] = 0 from rfl, BitVec.add_zero] at rest
      exact rest
    | op i =>
      have positive := i.size_pos
      rw [size_append, size_cons] at fits
      simp only [Line.size] at fits
      refine ⟨(lineAt_append (Nat.le_refl _) (by omega) start _).trans (if_pos rfl), ?_⟩
      rw [show size [Line.op i] = i.size from rfl] at rest
      exact rest

end MsxPulse.Library.Z80
