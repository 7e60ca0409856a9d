import Mathlib.Data.List.Basic
import Mathlib.Data.Nat.Init

/-!
# Deterministic machines with inputs and outputs

A machine consumes one input at a time and emits a finite list of outputs per
step. Everything that is nondeterministic in a system (its environment, its
schedule, its clock) is an input, so a run is a list of inputs. The rules below
are the induction principles used by every state machine of the development:
one-run invariants, invariants under a condition on the steps taken, properties
of the emitted outputs, and runs on streams of inputs.
-/

namespace MsxPulse.Library

universe u v w

/-- One step turns a state and an input into a state and emitted outputs. -/
structure Machine (State : Type u) (Input : Type v) (Output : Type w) where
  step : State → Input → State × List Output

namespace Machine

variable {State : Type u} {Input : Type v} {Output : Type w}

/-- The state reached by a list of inputs. -/
def final (m : Machine State Input Output) (s : State) (inputs : List Input) : State :=
  inputs.foldl (fun s i => (m.step s i).1) s

/-- Everything a run emits, in order. -/
def trace (m : Machine State Input Output) : State → List Input → List Output
  | _, [] => []
  | s, i :: inputs => (m.step s i).2 ++ m.trace (m.step s i).1 inputs

@[simp] theorem final_nil (m : Machine State Input Output) (s : State) : m.final s [] = s := rfl

@[simp] theorem final_cons (m : Machine State Input Output) (s : State) (i : Input)
    (inputs : List Input) : m.final s (i :: inputs) = m.final (m.step s i).1 inputs := rfl

theorem final_append (m : Machine State Input Output) (s : State) (first second : List Input) :
    m.final s (first ++ second) = m.final (m.final s first) second := by
  simp [final]

@[simp] theorem trace_nil (m : Machine State Input Output) (s : State) : m.trace s [] = [] := rfl

@[simp] theorem trace_cons (m : Machine State Input Output) (s : State) (i : Input)
    (inputs : List Input) :
    m.trace s (i :: inputs) = (m.step s i).2 ++ m.trace (m.step s i).1 inputs := rfl

theorem trace_append (m : Machine State Input Output) (s : State) (first second : List Input) :
    m.trace s (first ++ second) = m.trace s first ++ m.trace (m.final s first) second := by
  induction first generalizing s with
  | nil => rfl
  | cons i first ih =>
    rw [List.cons_append, trace_cons, ih, trace_cons, List.append_assoc, final_cons]

/-- Every step of the run is taken from a state in which its input is allowed. -/
def Along (m : Machine State Input Output) (allowed : State → Input → Prop) :
    State → List Input → Prop
  | _, [] => True
  | s, i :: inputs => allowed s i ∧ m.Along allowed (m.step s i).1 inputs

@[simp] theorem along_nil (m : Machine State Input Output) (allowed : State → Input → Prop)
    (s : State) : m.Along allowed s [] := trivial

@[simp] theorem along_cons (m : Machine State Input Output) (allowed : State → Input → Prop)
    (s : State) (i : Input) (inputs : List Input) :
    m.Along allowed s (i :: inputs) ↔ allowed s i ∧ m.Along allowed (m.step s i).1 inputs :=
  Iff.rfl

instance decidableAlong (m : Machine State Input Output) (allowed : State → Input → Prop)
    [∀ s i, Decidable (allowed s i)] : ∀ (s : State) (inputs : List Input),
    Decidable (m.Along allowed s inputs)
  | _, [] => .isTrue trivial
  | s, i :: inputs =>
    have := decidableAlong m allowed (m.step s i).1 inputs
    inferInstanceAs (Decidable (allowed s i ∧ m.Along allowed (m.step s i).1 inputs))

theorem along_append (m : Machine State Input Output) (allowed : State → Input → Prop)
    (s : State) (first second : List Input) :
    m.Along allowed s (first ++ second) ↔
      m.Along allowed s first ∧ m.Along allowed (m.final s first) second := by
  induction first generalizing s with
  | nil => simp
  | cons i first ih => simp [ih, and_assoc]

/-- A condition on the inputs alone. -/
theorem along_of_forall (m : Machine State Input Output) {allowed : Input → Prop} (s : State)
    {inputs : List Input} (h : ∀ i ∈ inputs, allowed i) : m.Along (fun _ => allowed) s inputs := by
  induction inputs generalizing s with
  | nil => trivial
  | cons i inputs ih =>
    exact ⟨h i List.mem_cons_self, ih _ fun j inside => h j (List.mem_cons_of_mem _ inside)⟩

theorem along_and (m : Machine State Input Output) (allowed allowed' : State → Input → Prop)
    (s : State) (inputs : List Input) :
    m.Along (fun s i => allowed s i ∧ allowed' s i) s inputs ↔
      m.Along allowed s inputs ∧ m.Along allowed' s inputs := by
  induction inputs generalizing s with
  | nil => simp
  | cons i inputs ih =>
    rw [along_cons, along_cons, along_cons, ih]
    exact and_and_and_comm

/-- An invariant that allowed steps preserve holds after every allowed run. -/
theorem final_invariant (m : Machine State Input Output) (allowed : State → Input → Prop)
    (inv : State → Prop) (preserved : ∀ s i, inv s → allowed s i → inv (m.step s i).1)
    {s : State} (start : inv s) {inputs : List Input} (along : m.Along allowed s inputs) :
    inv (m.final s inputs) := by
  induction inputs generalizing s with
  | nil => exact start
  | cons i inputs ih => exact ih (preserved s i start along.1) along.2

/-- The case in which every step is allowed. -/
theorem final_preserved (m : Machine State Input Output) (inv : State → Prop)
    (preserved : ∀ s i, inv s → inv (m.step s i).1) {s : State} (start : inv s)
    (inputs : List Input) : inv (m.final s inputs) :=
  m.final_invariant (fun _ _ => True) inv (fun s i h _ => preserved s i h) start
    (m.along_of_forall s fun _ _ => trivial)

/-- What each allowed step keeps pending or brings to its goal is brought to its goal in
a run, unless it is still pending at the end. -/
theorem goal_or_pending (m : Machine State Input Output) (allowed : State → Input → Prop)
    (pending goal : State → Prop)
    (progress : ∀ s i, pending s → allowed s i → goal (m.step s i).1 ∨ pending (m.step s i).1)
    {s : State} (start : pending s) {inputs : List Input} (along : m.Along allowed s inputs) :
    (∃ first i rest, inputs = first ++ i :: rest ∧ pending (m.final s first) ∧
      goal (m.final s (first ++ [i]))) ∨ pending (m.final s inputs) := by
  induction inputs generalizing s with
  | nil => exact .inr start
  | cons i inputs ih =>
    rcases progress s i start along.1 with reached | still
    · exact .inl ⟨[], i, inputs, rfl, start, reached⟩
    · rcases ih still along.2 with ⟨first, j, rest, rfl, before, reached⟩ | waiting
      · exact .inl ⟨i :: first, j, rest, rfl, before, reached⟩
      · exact .inr waiting

/-- An invariant of the state and of everything that has been emitted before it. -/
theorem history_invariant (m : Machine State Input Output) (allowed : State → Input → Prop)
    (inv : List Output → State → Prop)
    (preserved : ∀ past s i, inv past s → allowed s i →
      inv (past ++ (m.step s i).2) (m.step s i).1)
    {past : List Output} {s : State} (start : inv past s) {inputs : List Input}
    (along : m.Along allowed s inputs) : inv (past ++ m.trace s inputs) (m.final s inputs) := by
  induction inputs generalizing past s with
  | nil =>
    rw [trace_nil, List.append_nil]
    exact start
  | cons i inputs ih =>
    rw [trace_cons, ← List.append_assoc]
    exact ih (preserved past s i start along.1) along.2

/-- What every step emits under an invariant, a whole run emits. -/
theorem trace_forall (m : Machine State Input Output) (inv : State → Prop)
    (preserved : ∀ s i, inv s → inv (m.step s i).1) (good : Output → Prop)
    (emits : ∀ s i, inv s → ∀ o ∈ (m.step s i).2, good o) {s : State} (start : inv s)
    (inputs : List Input) : ∀ o ∈ m.trace s inputs, good o := by
  induction inputs generalizing s with
  | nil => simp
  | cons i inputs ih =>
    intro o ho
    rcases List.mem_append.mp ho with now | later
    · exact emits s i start o now
    · exact ih (preserved s i start) o later

/-- What a run emits is emitted at one of its inputs. -/
theorem mem_trace (m : Machine State Input Output) {s : State} {inputs : List Input} {o : Output}
    (emitted : o ∈ m.trace s inputs) :
    ∃ first i rest, inputs = first ++ i :: rest ∧ o ∈ (m.step (m.final s first) i).2 := by
  induction inputs generalizing s with
  | nil => exact absurd emitted List.not_mem_nil
  | cons i inputs ih =>
    rcases List.mem_append.mp emitted with now | later
    · exact ⟨[], i, inputs, rfl, now⟩
    · obtain ⟨first, j, rest, rfl, here⟩ := ih later
      exact ⟨i :: first, j, rest, rfl, here⟩

/-- A queue whose every step lets in and out what the step reports: over a run, what
was queued and what came in is what went out and what is still queued. -/
theorem trace_conserved {Item : Type w} (m : Machine State Input Output)
    (allowed : State → Input → Prop) (inv : State → Prop)
    (preserved : ∀ s i, inv s → allowed s i → inv (m.step s i).1) (queue : State → List Item)
    (enters leaves : Output → List Item)
    (balanced : ∀ s i, inv s → allowed s i → queue s ++ (m.step s i).2.flatMap enters =
      (m.step s i).2.flatMap leaves ++ queue (m.step s i).1)
    {s : State} (start : inv s) {inputs : List Input} (along : m.Along allowed s inputs) :
    queue s ++ (m.trace s inputs).flatMap enters =
      (m.trace s inputs).flatMap leaves ++ queue (m.final s inputs) := by
  induction inputs generalizing s with
  | nil => simp
  | cons i inputs ih =>
    rw [trace_cons, List.flatMap_append, List.flatMap_append, ← List.append_assoc,
      balanced s i start along.1, List.append_assoc, ih (preserved s i start along.1) along.2,
      List.append_assoc, final_cons]

/-- Two conditions on steps that agree under an invariant allow the same runs. -/
theorem along_congr (m : Machine State Input Output) {allowed allowed' : State → Input → Prop}
    (inv : State → Prop) (preserved : ∀ s i, inv s → inv (m.step s i).1)
    (agree : ∀ s i, inv s → (allowed s i ↔ allowed' s i)) {s : State} (start : inv s)
    (inputs : List Input) : m.Along allowed s inputs ↔ m.Along allowed' s inputs := by
  induction inputs generalizing s with
  | nil => exact Iff.rfl
  | cons i inputs ih => exact and_congr (agree s i start) (ih (preserved s i start))

/-! ## Streams of inputs -/

/-- The state before input `n` of a stream. -/
def stateAt (m : Machine State Input Output) (s : State) (inputs : Nat → Input) : Nat → State
  | 0 => s
  | n + 1 => (m.step (m.stateAt s inputs n) (inputs n)).1

/-- What input `n` of a stream emits. -/
def emittedAt (m : Machine State Input Output) (s : State) (inputs : Nat → Input) (n : Nat) :
    List Output :=
  (m.step (m.stateAt s inputs n) (inputs n)).2

/-- The lists `f first`, ..., `f (last - 1)` in a row. -/
def gather {Item : Type w} (f : Nat → List Item) (first last : Nat) : List Item :=
  (List.range' first (last - first)).flatMap f

/-- What the inputs `first ..< last` of a stream emit. -/
def emittedFrom (m : Machine State Input Output) (s : State) (inputs : Nat → Input)
    (first last : Nat) : List Output :=
  gather (m.emittedAt s inputs) first last

section Streams

variable {Item : Type w} (f : Nat → List Item)

@[simp] theorem gather_self (n : Nat) : gather f n n = [] := by
  simp [gather]

theorem gather_succ {first last : Nat} (le : first ≤ last) :
    gather f first (last + 1) = gather f first last ++ f last := by
  unfold gather
  rw [Nat.succ_sub le, List.range'_concat, List.flatMap_append, Nat.one_mul,
    Nat.add_sub_cancel' le]
  simp

theorem gather_append {first middle last : Nat} (le : first ≤ middle) (le' : middle ≤ last) :
    gather f first last = gather f first middle ++ gather f middle last := by
  induction last, le' using Nat.le_induction with
  | base => simp
  | succ last le' ih =>
    rw [gather_succ f (Nat.le_trans le le'), gather_succ f le', ih, List.append_assoc]

end Streams

end Machine

end MsxPulse.Library
