import ContentionQueue.Lib.Machine
import Mathlib.Algebra.BigOperators.Ring.List
import Mathlib.Algebra.GroupWithZero.Nat

/-!
# Budgets of runs

A weight on the states of a machine bounds what its runs can do.  Every step
pays a cost, out of the weight of the state and out of a credit that its action
brings.

* `Exec.budget` is the rule: the cost of a run is paid by the weight of its
  start and the credit of its actions.
* `Exec.length_le` is the case without credit: such a run comes to its end.
-/

namespace Machines

namespace Machine

variable {σ α ε : Type} {m : Machine σ α ε} {allowed : σ → α → Prop}
  {s₀ s : σ} {acts : List α} {log : List ε}

/-- The number of actions of a kind, as a cost. -/
theorem sum_map_toNat (p : α → Bool) (acts : List α) :
    (acts.map fun a => (p a).toNat).sum = acts.countP p := by
  induction acts with
  | nil => rfl
  | cons a acts ih =>
      rw [List.map_cons, List.sum_cons, ih, List.countP_cons]
      cases p a <;> simp [Nat.add_comm]

/-- The budget rule.  When every step pays its cost out of the weight of the
state and the credit of its action, then the cost of a run is paid by the weight
of its start and the credit of its actions. -/
theorem Exec.budget (weight : σ → Nat) (cost credit : α → Nat)
    (hpay : ∀ {acts log s a s' evs}, m.Exec allowed s₀ acts log s →
      allowed s a → m.step s a = some (s', evs) →
        cost a + weight s' ≤ weight s + credit a)
    (h : m.Exec allowed s₀ acts log s) :
    (acts.map cost).sum + weight s ≤ weight s₀ + (acts.map credit).sum := by
  induction h with
  | nil => simp
  | snoc run hallow hstep ih =>
      have hlast := hpay run hallow hstep
      simp only [List.map_append, List.sum_append, List.map_cons, List.map_nil,
        List.sum_cons, List.sum_nil]
      omega

/-- A run that always pays is not longer than the weight of its start. -/
theorem Exec.length_le (weight : σ → Nat)
    (hpay : ∀ {acts log s a s' evs}, m.Exec allowed s₀ acts log s →
      allowed s a → m.step s a = some (s', evs) → weight s' < weight s)
    (h : m.Exec allowed s₀ acts log s) : acts.length ≤ weight s₀ := by
  have hbudget := Exec.budget weight (fun _ => 1) (fun _ => 0)
    (fun run hallow hstep => by
      have hlt := hpay run hallow hstep
      omega) h
  simp only [List.map_const', List.sum_replicate_nat, Nat.mul_one,
    Nat.mul_zero] at hbudget
  omega

end Machine

end Machines
