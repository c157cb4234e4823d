import Mathlib.Logic.Function.Basic

/-!
# Locks and their holders

Two tables describe who holds which lock: the lock says where its guard is,
and the holder says which guard it has.  `Agree` says that the two tables are
the same, for the guards that some holder has.  A guard may be in another
place too, which no holder is.

The lemmas say how `Agree` survives the moves of a guard.
-/

namespace Locks

variable {ι κ π : Type}

/-- `locks a` is the place of holder `i` exactly when `i` has a guard of
`a`. -/
def Agree (place : ι → π) (locks : κ → Option π) (held : ι → Option κ) :
    Prop :=
  ∀ i a, locks a = some (place i) ↔ held i = some a

variable {place : ι → π} {locks : κ → Option π} {held : ι → Option κ}

/-- A lock has one holder. -/
theorem Agree.unique (h : Agree place locks held)
    (hplace : Function.Injective place) {i j : ι} {a : κ}
    (hi : held i = some a) (hj : held j = some a) : i = j := by
  have hi' := (h i a).mpr hi
  have hj' := (h j a).mpr hj
  rw [hi'] at hj'
  exact hplace (Option.some.inj hj')

variable [DecidableEq ι] [DecidableEq κ]

omit [DecidableEq κ] in
/-- A holder goes on with what it has. -/
theorem Agree.keep (h : Agree place locks held) {i : ι} {x : Option κ}
    (hi : held i = x) : Agree place locks (Function.update held i x) := by
  subst hi
  rwa [Function.update_eq_self]

/-- A guard moves to holder `i` from a place that is no holder, or from
nowhere. -/
theorem Agree.acquire (h : Agree place locks held)
    (hplace : Function.Injective place) {i : ι} {a : κ}
    (hfree : ∀ j, locks a ≠ some (place j)) (hnone : held i = none) :
    Agree place (Function.update locks a (some (place i)))
      (Function.update held i (some a)) := by
  intro j b
  rcases eq_or_ne b a with rfl | hb
  · rcases eq_or_ne j i with rfl | hj
    · simp
    · have hne : place i ≠ place j := fun he => hj (hplace he).symm
      have hheld : held j ≠ some b := fun he => hfree j ((h j b).mpr he)
      simp [hj, hne, hheld]
  · rcases eq_or_ne j i with rfl | hj
    · have hne : locks b ≠ some (place j) := by
        intro he
        rw [(h j b).mp he] at hnone
        cases hnone
      simp [hb, hne, Ne.symm hb]
    · simp [hb, hj, h j b]

/-- A guard moves from holder `i` to a place that is no holder, or to
nowhere. -/
theorem Agree.release (h : Agree place locks held)
    (hplace : Function.Injective place) {i : ι} {a : κ}
    (hheld : held i = some a) {p : Option π}
    (hp : ∀ j, p ≠ some (place j)) :
    Agree place (Function.update locks a p) (Function.update held i none) := by
  intro j b
  rcases eq_or_ne b a with rfl | hb
  · rcases eq_or_ne j i with rfl | hj
    · simp [hp]
    · have hne : held j ≠ some b := fun he => hj (h.unique hplace he hheld)
      simp [hj, hp, hne]
  · rcases eq_or_ne j i with rfl | hj
    · have hne : locks b ≠ some (place j) := by
        intro he
        have heq := (h j b).mp he
        rw [hheld] at heq
        exact hb (Option.some.inj heq).symm
      simp [hb, hne]
    · simp [hb, hj, h j b]

omit [DecidableEq ι] in
/-- A guard moves between places that are no holders. -/
theorem Agree.outside (h : Agree place locks held) {a : κ}
    (hold : ∀ j, locks a ≠ some (place j)) {p : Option π}
    (hp : ∀ j, p ≠ some (place j)) :
    Agree place (Function.update locks a p) held := by
  intro j b
  rcases eq_or_ne b a with rfl | hb
  · have hne : held j ≠ some b := fun he => hold j ((h j b).mpr he)
    simp [hp, hne]
  · simp [hb, h j b]

end Locks
