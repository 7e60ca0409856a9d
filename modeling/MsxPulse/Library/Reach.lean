import MsxPulse.Library.Machine

/-!
# Reachability in machines without inputs

A machine whose only input is the tick that makes it step has one run from each state.
`Reaches` names a stretch of it on which every step is an allowed one, `Arrives` the
stretch up to the first state at which the run is to stop. Loops that count down are
followed by their counter.
-/

namespace MsxPulse.Library.Machine

universe u w

variable {State : Type u} {Output : Type w} {m : Machine State Unit Output}

/-- Some steps, each from an allowed state, lead from `s` to `t`. -/
def Reaches (m : Machine State Unit Output) (allowed : State → Prop) (s t : State) : Prop :=
  ∃ n, m.Along (fun s _ => allowed s) s (List.replicate n ()) ∧
    m.final s (List.replicate n ()) = t

/-- `t` is the first state from `s` on that stops, and every state before it is allowed. -/
def Arrives (m : Machine State Unit Output) (stop allowed : State → Prop) (s t : State) : Prop :=
  m.Reaches (fun s => ¬stop s ∧ allowed s) s t ∧ stop t

variable {allowed allowed' : State → Prop} {stop : State → Prop} {s t u : State}

namespace Reaches

theorem refl (s : State) : m.Reaches allowed s s := ⟨0, trivial, rfl⟩

theorem step (start : allowed s) (rest : m.Reaches allowed (m.step s ()).1 t) :
    m.Reaches allowed s t := by
  obtain ⟨n, along, final⟩ := rest
  exact ⟨n + 1, ⟨start, along⟩, final⟩

theorem trans (first : m.Reaches allowed s t) (second : m.Reaches allowed t u) :
    m.Reaches allowed s u := by
  obtain ⟨n, along, rfl⟩ := first
  obtain ⟨k, along', final⟩ := second
  refine ⟨n + k, ?_, ?_⟩
  · rw [List.replicate_add, along_append]
    exact ⟨along, along'⟩
  · rw [List.replicate_add, final_append]
    exact final

theorem mono (weaker : ∀ s, allowed s → allowed' s) (h : m.Reaches allowed s t) :
    m.Reaches allowed' s t := by
  obtain ⟨n, along, final⟩ := h
  refine ⟨n, ?_, final⟩
  clear final
  induction n generalizing s with
  | zero => trivial
  | succ n ih => exact ⟨weaker s along.1, ih along.2⟩

/-- Every turn of a counted loop leaves it, or counts down; so the loop is left. -/
theorem countdown {inv : Nat → State → Prop} {left : State → Prop}
    (turn : ∀ k s, inv (k + 1) s →
      ∃ t, m.Reaches allowed s t ∧ (left t ∨ 0 < k ∧ inv k t))
    {k : Nat} {s : State} (start : inv (k + 1) s) : ∃ t, m.Reaches allowed s t ∧ left t := by
  induction k generalizing s with
  | zero =>
    obtain ⟨t, reached, out | ⟨more, -⟩⟩ := turn 0 s start
    · exact ⟨t, reached, out⟩
    · exact absurd more (Nat.lt_irrefl 0)
  | succ k ih =>
    obtain ⟨t, reached, out | ⟨-, next⟩⟩ := turn (k + 1) s start
    · exact ⟨t, reached, out⟩
    · obtain ⟨u, reached', out⟩ := ih next
      exact ⟨u, reached.trans reached', out⟩

end Reaches

/-- The run has one first state that stops. -/
theorem Arrives.unique (h : m.Arrives stop allowed s t) (h' : m.Arrives stop allowed' s u) :
    t = u := by
  obtain ⟨⟨n, along, rfl⟩, stopped⟩ := h
  obtain ⟨⟨k, along', rfl⟩, stopped'⟩ := h'
  induction n generalizing s k with
  | zero =>
    cases k with
    | zero => rfl
    | succ k => exact absurd stopped along'.1.1
  | succ n ih =>
    cases k with
    | zero => exact absurd stopped' along.1.1
    | succ k => exact ih along.2 stopped k along'.2 stopped'

end MsxPulse.Library.Machine
