import Mathlib.Data.List.Nodup
import Mathlib.Logic.Function.Basic

/-!
# Threads as stacks of calls

A thread is a stack of calls, innermost first.  A table gives for each call
its thread, whether it is live, and whether it is in code that may start
another call.  `Nested` says that the two descriptions agree: the live calls
of a thread are its stack, and every call below the top is in code that may
start a call.

The lemmas say how `Nested` survives the three changes of a stack: the top
goes on, the top ends, and a new call is put on top.
-/

namespace Stacks

variable {τ ι : Type}

/-- A call as its thread sees it. -/
structure Kind (τ : Type) where
  thread : τ
  live : Bool
  calls : Bool

/-- The stacks of the threads are the live calls, properly nested. -/
structure Nested (stackOf : τ → List ι) (kind : ι → Option (Kind τ)) :
    Prop where
  mem : ∀ t i, i ∈ stackOf t ↔ ∃ k, kind i = some k ∧ k.thread = t ∧ k.live
  nodup : ∀ t, (stackOf t).Nodup
  below : ∀ t i rest, stackOf t = i :: rest → ∀ j ∈ rest, ∀ k,
    kind j = some k → k.calls

variable {stackOf : τ → List ι} {kind : ι → Option (Kind τ)}

/-- A live call that cannot start another call is on top of its thread. -/
theorem Nested.top (h : Nested stackOf kind) {i : ι} {k : Kind τ}
    (hk : kind i = some k) (hlive : k.live) (hcalls : k.calls = false) :
    (stackOf k.thread).head? = some i := by
  have hmem : i ∈ stackOf k.thread := (h.mem _ _).mpr ⟨k, hk, rfl, hlive⟩
  cases hs : stackOf k.thread with
  | nil => simp [hs] at hmem
  | cons j rest =>
      rw [hs, List.mem_cons] at hmem
      rcases hmem with rfl | hmem
      · rfl
      · have hc := h.below _ _ _ hs i hmem k hk
        rw [hcalls] at hc
        cases hc

variable [DecidableEq ι]

/-- The top of a stack goes on. -/
theorem Nested.move (h : Nested stackOf kind) {i : ι} {k k' : Kind τ}
    (hk : kind i = some k) (hlive : k.live)
    (htop : (stackOf k.thread).head? = some i)
    (hthread : k'.thread = k.thread) (hlive' : k'.live) :
    Nested stackOf (Function.update kind i (some k')) where
  mem := by
    intro t j
    rw [h.mem t j]
    rcases eq_or_ne j i with rfl | hj
    · simp [hk, hthread, hlive, hlive']
    · simp [hj]
  nodup := h.nodup
  below := by
    intro t j rest hs l hl m hm
    rcases eq_or_ne l i with rfl | hne
    · have hmem : l ∈ stackOf t := by simp [hs, hl]
      obtain ⟨k₁, hk₁, ht, -⟩ := (h.mem t l).mp hmem
      rw [hk, Option.some.injEq] at hk₁
      subst hk₁ ht
      rw [hs, List.head?_cons, Option.some.injEq] at htop
      subst htop
      have hnodup := h.nodup k.thread
      rw [hs] at hnodup
      exact absurd hl (List.nodup_cons.mp hnodup).1
    · exact h.below t j rest hs l hl m (by simpa [hne] using hm)

variable [DecidableEq τ]

/-- The top of a stack ends. -/
theorem Nested.pop (h : Nested stackOf kind) {i : ι} {k k' : Kind τ}
    (hk : kind i = some k) (htop : (stackOf k.thread).head? = some i)
    (hdead : k'.live = false) :
    Nested (Function.update stackOf k.thread (stackOf k.thread).tail)
      (Function.update kind i (some k')) := by
  obtain ⟨rest, hs⟩ : ∃ rest, stackOf k.thread = i :: rest := by
    cases hs : stackOf k.thread with
    | nil => simp [hs] at htop
    | cons j rest =>
        rw [hs, List.head?_cons, Option.some.injEq] at htop
        exact ⟨rest, by rw [htop]⟩
  have hnodup := h.nodup k.thread
  rw [hs] at hnodup
  obtain ⟨hi, hrest⟩ := List.nodup_cons.mp hnodup
  have hother : ∀ t, t ≠ k.thread → i ∉ stackOf t := by
    intro t ht hmem
    obtain ⟨k₁, hk₁, hkt, -⟩ := (h.mem t i).mp hmem
    rw [hk, Option.some.injEq] at hk₁
    exact ht (hk₁ ▸ hkt.symm)
  refine ⟨?_, ?_, ?_⟩
  · intro t j
    rcases eq_or_ne t k.thread with rfl | ht
    · rcases eq_or_ne j i with rfl | hj
      · simp [hs, hi, hdead]
      · have hm := h.mem k.thread j
        rw [hs, List.mem_cons, or_iff_right hj] at hm
        simp [hs, hj, hm]
    · rcases eq_or_ne j i with rfl | hj
      · simp [ht, hother t ht, hdead]
      · simp [ht, hj, h.mem t j]
  · intro t
    rcases eq_or_ne t k.thread with rfl | ht
    · simpa [hs] using hrest
    · simpa [ht] using h.nodup t
  · intro t j rest' hs' l hl m hm
    rcases eq_or_ne t k.thread with rfl | ht
    · simp only [Function.update_self, hs, List.tail_cons] at hs'
      have hl' : l ∈ rest := by simp [hs', hl]
      have hne : l ≠ i := by
        rintro rfl
        exact hi hl'
      exact h.below _ _ _ hs l hl' m (by simpa [hne] using hm)
    · rw [Function.update_of_ne ht] at hs'
      have hne : l ≠ i := by
        rintro rfl
        exact hother t ht (by simp [hs', hl])
      exact h.below t j rest' hs' l hl m (by simpa [hne] using hm)

/-- A new call is put on top of a thread whose top may start a call. -/
theorem Nested.push (h : Nested stackOf kind) {i : ι} {k : Kind τ}
    (hnew : kind i = none) (hlive : k.live)
    (htop : ∀ j, (stackOf k.thread).head? = some j → ∀ m, kind j = some m →
      m.calls) :
    Nested (Function.update stackOf k.thread (i :: stackOf k.thread))
      (Function.update kind i (some k)) := by
  have hi : ∀ t, i ∉ stackOf t := by
    intro t hmem
    obtain ⟨k₁, hk₁, -⟩ := (h.mem t i).mp hmem
    rw [hnew] at hk₁
    cases hk₁
  refine ⟨?_, ?_, ?_⟩
  · intro t j
    rcases eq_or_ne t k.thread with rfl | ht
    · rcases eq_or_ne j i with rfl | hj
      · simp [hlive]
      · simp [hj, h.mem k.thread j]
    · rcases eq_or_ne j i with rfl | hj
      · simp [ht, hi t, Ne.symm ht]
      · simp [ht, hj, h.mem t j]
  · intro t
    rcases eq_or_ne t k.thread with rfl | ht
    · simpa using ⟨hi k.thread, h.nodup k.thread⟩
    · simpa [ht] using h.nodup t
  · intro t j rest hs l hl m hm
    rcases eq_or_ne t k.thread with rfl | ht
    · simp only [Function.update_self, List.cons.injEq] at hs
      obtain ⟨rfl, rfl⟩ := hs
      have hne : l ≠ i := by
        rintro rfl
        exact hi _ hl
      rw [Function.update_of_ne hne] at hm
      cases hstack : stackOf k.thread with
      | nil => simp [hstack] at hl
      | cons top rest =>
          rw [hstack, List.mem_cons] at hl
          rcases hl with rfl | hl
          · exact htop l (by simp [hstack]) m hm
          · exact h.below _ _ _ hstack l hl m hm
    · rw [Function.update_of_ne ht] at hs
      have hne : l ≠ i := by
        rintro rfl
        exact hi t (by simp [hs, hl])
      exact h.below t j rest hs l hl m (by simpa [hne] using hm)

end Stacks
