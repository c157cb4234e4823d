import ContentionQueue.Lib.Machine
import Mathlib.Data.List.Forall2

/-!
# Simulation of runs by runs

Two machines that show the same events are compared through a map of their
states.  A step of the first machine may be matched by no step, by one step or
by several steps of the second one, so each step is matched by a run.

`keep` is what an observer still sees of the events, and `stands` says which
actions may stand for an action.
-/

namespace Machines

namespace Machine

variable {σ τ α β ε κ : Type} {m : Machine σ α ε} {m' : Machine τ β ε}
  {allowed : σ → α → Prop} {allowed' : τ → β → Prop} {s₀ s : σ}
  {acts : List α} {log : List ε}

/-- The simulation rule.  When each step of the runs from `s₀` is matched by a
run between the images of its states, then each run is matched by the run that
is put together from the parts for its actions. -/
theorem Exec.simulates (f : σ → τ) (keep : ε → Bool)
    (stands : α → List β → Prop)
    (hstep : ∀ {acts log s a s' evs}, m.Exec allowed s₀ acts log s →
      allowed s a → m.step s a = some (s', evs) →
        ∃ part, stands a part ∧
          m'.Exec allowed' (f s) part (evs.filter keep) (f s'))
    (h : m.Exec allowed s₀ acts log s) :
    ∃ parts, List.Forall₂ stands acts parts ∧
      m'.Exec allowed' (f s₀) parts.flatten (log.filter keep) (f s) := by
  induction h with
  | nil => exact ⟨[], .nil, .nil⟩
  | @snoc acts log s a evs s' run hallow hs ih =>
      obtain ⟨parts, hparts, hrun⟩ := ih
      obtain ⟨part, hpart, hrun'⟩ := hstep run hallow hs
      refine ⟨parts ++ [part], ?_, ?_⟩
      · exact List.rel_append hparts (.cons hpart .nil)
      · rw [List.filter_append, List.flatten_append, List.flatten_singleton]
        exact hrun.trans hrun'

/-- What the actions have in common with the parts that stand for them. -/
theorem flatMap_flatten {view : α → List κ} {view' : β → List κ}
    {parts : List (List β)}
    (h : List.Forall₂ (fun a part => part.flatMap view' = view a) acts parts) :
    parts.flatten.flatMap view' = acts.flatMap view := by
  induction h with
  | nil => rfl
  | cons hpart _ ih =>
      rw [List.flatten_cons, List.flatMap_append, List.flatMap_cons, hpart, ih]

end Machine

end Machines
