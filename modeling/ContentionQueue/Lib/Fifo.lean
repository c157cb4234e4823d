import Mathlib.Data.List.ReduceOption

/-!
# FIFO queues and cursors

`Step` is a FIFO queue as its client sees it: an operation with its result
takes the contents to the next contents.  `Steps` is a list of operations.

A `Cursor` is a FIFO queue inside a list that nothing is removed from.  The
slots before the cursor are empty, the slots from it on are full, and the
contents are what the full slots hold.  A cursor that breaks this cannot be
written down.  The lemmas say what the contents are when a slot is added and
when the slot at the cursor is emptied.
-/

namespace Fifo

variable {α : Type}

/-! ## The queue -/

/-- An operation with its result. -/
inductive Op (α : Type) where
  | enqueue (a : α)
  | dequeue (result : Option α)
  | front (result : Option α)
  deriving DecidableEq, Repr

/-- An operation takes the contents of a queue to the next contents. -/
inductive Step : List α → Op α → List α → Prop where
  | enqueue {q a} : Step q (.enqueue a) (q ++ [a])
  | dequeue {q} : Step q (.dequeue q.head?) q.tail
  | front {q} : Step q (.front q.head?) q

/-- A list of operations takes the contents of a queue to later contents. -/
inductive Steps : List α → List (Op α) → List α → Prop where
  | nil {q} : Steps q [] q
  | cons {q op q₁ ops q₂} (hstep : Step q op q₁) (rest : Steps q₁ ops q₂) :
      Steps q (op :: ops) q₂

section Steps

variable {q q₁ q₂ : List α} {op : Op α} {ops ops₁ ops₂ : List (Op α)}

theorem Steps.single (h : Step q op q₁) : Steps q [op] q₁ :=
  .cons h .nil

theorem Steps.trans (h₁ : Steps q ops₁ q₁) (h₂ : Steps q₁ ops₂ q₂) :
    Steps q (ops₁ ++ ops₂) q₂ := by
  induction h₁ with
  | nil => exact h₂
  | cons hstep _ ih => exact .cons hstep (ih h₂)

theorem Steps.of_append (h : Steps q (ops₁ ++ ops₂) q₂) :
    ∃ q₁, Steps q ops₁ q₁ ∧ Steps q₁ ops₂ q₂ := by
  induction ops₁ generalizing q with
  | nil => exact ⟨q, .nil, h⟩
  | cons op ops₁ ih =>
      cases h with
      | cons hstep rest =>
          obtain ⟨q₁, h₁, h₂⟩ := ih rest
          exact ⟨q₁, .cons hstep h₁, h₂⟩

/-- The head stays the head as long as nothing is dequeued. -/
theorem Steps.head?_eq {v : α} (h : Steps q ops q₁)
    (hops : ∀ r, .dequeue r ∉ ops) (hv : q.head? = some v) :
    q₁.head? = some v := by
  induction h with
  | nil => exact hv
  | cons hstep _ ih =>
      refine ih (fun r hr => hops r (List.mem_cons_of_mem _ hr)) ?_
      cases hstep with
      | enqueue => rw [List.head?_append, hv, Option.some_or]
      | dequeue => exact absurd List.mem_cons_self (hops _)
      | front => exact hv

/-- What a client sees at the front is what it dequeues next. -/
theorem Steps.front_dequeue {v : α} {r : Option α} {mid : List (Op α)}
    (h : Steps q (ops₁ ++ .front (some v) :: (mid ++ .dequeue r :: ops₂)) q₁)
    (hmid : ∀ r', .dequeue r' ∉ mid) : r = some v := by
  obtain ⟨q₂, -, hfront⟩ := h.of_append
  generalize hv : some v = front at hfront
  cases hfront with
  | cons hstep rest =>
      cases hstep
      obtain ⟨q₃, hmids, hdequeue⟩ := rest.of_append
      have hhead := hmids.head?_eq hmid hv.symm
      cases hdequeue with
      | cons hstep _ =>
          cases hstep
          exact hhead.trans hv

end Steps

/-! ## Cursors -/

/-- A list of slots with a cursor. -/
structure Cursor (α : Type) where
  slots : List (Option α)
  next : Nat
  bound : next ≤ slots.length
  emptied : ∀ x ∈ slots.take next, x = none
  full : ∀ x ∈ slots.drop next, x ≠ none

namespace Cursor

/-- What the slots from the cursor on hold. -/
def contents (c : Cursor α) : List α :=
  (c.slots.drop c.next).reduceOption

variable {c c' : Cursor α}

theorem map_some_contents (c : Cursor α) :
    c.contents.map some = c.slots.drop c.next := by
  have h : ∀ xs : List (Option α), (∀ x ∈ xs, x ≠ none) →
      xs.reduceOption.map some = xs := by
    intro xs
    induction xs with
    | nil => exact fun _ => rfl
    | cons x xs ih =>
        intro hfull
        cases x with
        | none => exact absurd rfl (hfull none List.mem_cons_self)
        | some a =>
            rw [List.reduceOption_cons_of_some, List.map_cons,
              ih fun x hx => hfull x (List.mem_cons_of_mem _ hx)]
  exact h _ c.full

/-- The slot at the cursor holds the head of the contents. -/
theorem slot_eq_head? (c : Cursor α) :
    c.slots[c.next]? = c.contents.head?.map some := by
  rw [← List.head?_map, map_some_contents, List.head?_drop]

theorem contents_congr (hslots : c'.slots = c.slots)
    (hnext : c'.next = c.next) : c'.contents = c.contents := by
  rw [contents, contents, hslots, hnext]

/-- A full slot is added. -/
theorem contents_append {a : α} (hslots : c'.slots = c.slots ++ [some a])
    (hnext : c'.next = c.next) : c'.contents = c.contents ++ [a] := by
  rw [contents, hslots, hnext, List.drop_append_of_le_length c.bound,
    List.reduceOption_append]
  rfl

/-- The slot at the cursor is emptied, and the cursor goes on. -/
theorem contents_advance (hslots : c'.slots = c.slots.set c.next none)
    (hnext : c'.next = c.next + 1) : c'.contents = c.contents.tail := by
  have hdrop : c'.slots.drop c'.next = (c.slots.drop c.next).tail := by
    rw [hslots, hnext, List.drop_set_of_lt (Nat.lt_succ_self _),
      List.tail_drop]
  have hmap : c'.contents.map some = c.contents.tail.map some := by
    rw [map_some_contents, hdrop, ← map_some_contents, List.map_tail]
  exact (List.map_inj_right fun _ _ => Option.some.inj).mp hmap

end Cursor

end Fifo
