import MsxPulse.Library.Format

/-!
# Texts and their lines

A loop over `strchr(p, '\n')` takes a text apart into lines. The last line need not be
ended by a newline; behind the last newline there is no further line.
-/

namespace MsxPulse.Library.CString

/-- `while (*p)`: up to the next newline, or to the end of the text. -/
def lines (p : List Byte) : List (List Byte) :=
  if p = [] then []
  else p.takeWhile (· != lf) :: lines ((p.dropWhile (· != lf)).drop 1)
termination_by p.length
decreasing_by
  rename_i nonempty
  have some : 0 < p.length := List.length_pos_iff.mpr nonempty
  have suffix := (List.dropWhile_suffix (fun b => b != lf) (l := p)).length_le
  by_cases rest : p.dropWhile (· != lf) = []
  · rw [rest]
    exact some
  · have behind : 0 < (p.dropWhile (· != lf)).length := List.length_pos_iff.mpr rest
    rw [List.length_drop]
    omega

/-- Every line ended by a newline. -/
def unlines (ls : List (List Byte)) : List Byte := ls.flatMap (· ++ [lf])

/-- No newline inside. -/
def Plain (l : List Byte) : Prop := ∀ b ∈ l, b ≠ lf

theorem Printable.plain {l : List Byte} (h : Printable l) : Plain l := by
  rintro b inside rfl
  exact absurd (h lf inside) (by decide)

@[simp] theorem lines_nil : lines [] = [] := by
  rw [lines, if_pos rfl]

@[simp] theorem unlines_nil : unlines [] = [] := rfl

theorem unlines_cons (l : List Byte) (ls : List (List Byte)) :
    unlines (l :: ls) = l ++ lf :: unlines ls := by
  rw [unlines, List.flatMap_cons, List.append_assoc]
  rfl

@[simp] theorem unlines_append (ls ms : List (List Byte)) :
    unlines (ls ++ ms) = unlines ls ++ unlines ms :=
  List.flatMap_append

theorem unlines_singleton (l : List Byte) : unlines [l] = l ++ [lf] := unlines_cons l []

theorem ascii_newline : ascii "\n" = [lf] := rfl

/-- Lines printed one by one with their newlines. -/
theorem flatten_map_newline {α : Type} (f : α → List Byte) (l : List α) :
    (l.map fun a => f a ++ ascii "\n").flatten = unlines (l.map f) := by
  rw [unlines, List.flatMap_map, List.flatMap_def]
  rfl

theorem lines_append {l : List Byte} (plain : Plain l) (rest : List Byte) :
    lines (l ++ lf :: rest) = l :: lines rest := by
  have pos : ∀ b ∈ l, (b != lf) = true := fun b inside => by simpa using plain b inside
  rw [lines, if_neg (by simp), List.takeWhile_append_of_pos pos, List.dropWhile_append_of_pos pos]
  simp

/-- A last line without a newline. -/
theorem lines_last {l : List Byte} (plain : Plain l) (nonempty : l ≠ []) : lines l = [l] := by
  have pos : ∀ b ∈ l, (b != lf) = true := fun b inside => by simpa using plain b inside
  rw [lines, if_neg nonempty, List.takeWhile_eq_self_iff.mpr pos,
    List.dropWhile_eq_nil_iff.mpr pos, List.drop_nil, lines_nil]

theorem lines_unlines_append {ls : List (List Byte)} (plain : ∀ l ∈ ls, Plain l)
    (rest : List Byte) : lines (unlines ls ++ rest) = ls ++ lines rest := by
  induction ls with
  | nil => rfl
  | cons l ls ih =>
    rw [unlines_cons, List.append_assoc, List.cons_append,
      lines_append (plain l List.mem_cons_self), ih fun m inside => plain m (List.mem_cons_of_mem _ inside)]
    rfl

theorem lines_unlines {ls : List (List Byte)} (plain : ∀ l ∈ ls, Plain l) :
    lines (unlines ls) = ls := by
  have all := lines_unlines_append plain []
  rwa [List.append_nil, lines_nil, List.append_nil] at all

theorem unlines_injective {ls ms : List (List Byte)} (hl : ∀ l ∈ ls, Plain l)
    (hm : ∀ m ∈ ms, Plain m) (same : unlines ls = unlines ms) : ls = ms := by
  rw [← lines_unlines hl, same, lines_unlines hm]

theorem plain_of_mem_lines {p l : List Byte} (h : l ∈ lines p) : Plain l := by
  induction p using lines.induct with
  | case1 => simp at h
  | case2 p nonempty ih =>
    rw [lines, if_neg nonempty] at h
    rcases List.mem_cons.mp h with rfl | later
    · exact fun b inside => by simpa using List.mem_takeWhile_imp inside
    · exact ih later

theorem mem_of_mem_lines {p l : List Byte} (h : l ∈ lines p) {b : Byte} (inside : b ∈ l) :
    b ∈ p := by
  induction p using lines.induct with
  | case1 => simp at h
  | case2 p nonempty ih =>
    rw [lines, if_neg nonempty] at h
    rcases List.mem_cons.mp h with rfl | later
    · exact (List.takeWhile_sublist _).subset inside
    · exact (List.dropWhile_sublist _).subset (List.mem_of_mem_drop (ih later))

/-- A text of printable lines, cut anywhere, has printable lines. -/
theorem printable_lines_take {ls : List (List Byte)} (printable : ∀ l ∈ ls, Printable l) (n : Nat) :
    ∀ l ∈ lines ((unlines ls).take n), Printable l := by
  intro l member b inside
  obtain ⟨whole, here, content⟩ :=
    List.mem_flatMap.mp (List.mem_of_mem_take (mem_of_mem_lines member inside))
  rcases List.mem_append.mp content with old | ending
  · exact printable whole here b old
  · exact absurd (List.mem_singleton.mp ending) (plain_of_mem_lines member b inside)

/-- Taken apart and put together, a text gains a newline at its end at most. -/
theorem length_unlines_lines_le (p : List Byte) : (unlines (lines p)).length ≤ p.length + 1 := by
  induction p using lines.induct with
  | case1 => simp
  | case2 p nonempty ih =>
    have whole : (p.takeWhile (· != lf)).length + (p.dropWhile (· != lf)).length = p.length := by
      rw [← List.length_append, List.takeWhile_append_dropWhile]
    rw [lines, if_neg nonempty, unlines_cons, List.length_append, List.length_cons]
    rw [List.length_drop] at ih
    by_cases rest : p.dropWhile (· != lf) = []
    · rw [rest] at whole ⊢
      simp at whole ⊢
      omega
    · have behind : 0 < (p.dropWhile (· != lf)).length := List.length_pos_iff.mpr rest
      omega

theorem length_unlines_take_le (ls : List (List Byte)) (n : Nat) :
    (unlines (ls.take n)).length ≤ (unlines ls).length := by
  have split : unlines ls = unlines (ls.take n) ++ unlines (ls.drop n) := by
    rw [← unlines_append, List.take_append_drop]
  rw [split, List.length_append]
  exact Nat.le_add_right _ _

theorem length_unlines_map_le {f : List Byte → List Byte} (shorter : ∀ l, (f l).length ≤ l.length)
    (ls : List (List Byte)) : (unlines (ls.map f)).length ≤ (unlines ls).length := by
  induction ls with
  | nil => exact Nat.le_refl _
  | cons l ls ih =>
    have here := shorter l
    rw [List.map_cons, unlines_cons, unlines_cons, List.length_append, List.length_append,
      List.length_cons, List.length_cons]
    omega

theorem length_unlines (ls : List (List Byte)) :
    (unlines ls).length = (ls.map fun l => l.length + 1).sum := by
  induction ls with
  | nil => rfl
  | cons l ls ih =>
    rw [unlines_cons, List.length_append, List.length_cons, ih, List.map_cons, List.sum_cons]
    omega

theorem length_unlines_le {ls : List (List Byte)} {n : Nat} (short : ∀ l ∈ ls, l.length ≤ n) :
    (unlines ls).length ≤ ls.length * (n + 1) := by
  induction ls with
  | nil => exact Nat.le_of_eq (Nat.zero_mul _).symm
  | cons l ls ih =>
    have here := short l List.mem_cons_self
    have rest := ih fun m inside => short m (List.mem_cons_of_mem _ inside)
    rw [unlines_cons, List.length_append, List.length_cons, List.length_cons, Nat.succ_mul]
    omega

theorem nonzero_of_mem_unlines {ls : List (List Byte)} (nonzero : ∀ l ∈ ls, ∀ b ∈ l, b ≠ 0) :
    ∀ b ∈ unlines ls, b ≠ 0 := by
  intro b inside
  obtain ⟨l, member, here⟩ := List.mem_flatMap.mp inside
  rcases List.mem_append.mp here with content | ending
  · exact nonzero l member b content
  · rw [List.mem_singleton.mp ending]
    decide

/-- A text whose last newline does not fit still has all its lines. -/
theorem lines_take_unlines {ls : List (List Byte)} {last : List Byte} {n : Nat}
    (plain : ∀ l ∈ ls ++ [last], Plain l) (nonempty : last ≠ [])
    (fits : (unlines (ls ++ [last])).length ≤ n + 1) :
    lines ((unlines (ls ++ [last])).take n) = ls ++ [last] := by
  rcases Nat.lt_or_ge n (unlines (ls ++ [last])).length with cut | whole
  · have text : unlines (ls ++ [last]) = (unlines ls ++ last) ++ [lf] := by
      rw [unlines_append, unlines_singleton, List.append_assoc]
    have size : (unlines ls ++ last).length = n := by
      rw [text, List.length_append, List.length_singleton] at cut fits
      omega
    rw [text, ← size, List.take_left, lines_unlines_append fun l inside =>
      plain l (List.mem_append_left _ inside),
      lines_last (plain last (List.mem_append_right _ List.mem_cons_self)) nonempty]
  · rw [List.take_of_length_le whole]
    exact lines_unlines plain

end MsxPulse.Library.CString
