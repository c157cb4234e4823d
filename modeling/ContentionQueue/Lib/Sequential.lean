import Mathlib.Data.List.Nodup

/-!
# Sequential objects and linearizations

A sequential object has a state and takes one operation after the other.  A
history is a list of operations, each with the client that asked for it, and a
log is a history with the answers.

A concurrent object linearizes a sequential one when what has happened so far
can be explained by a history: the state is the state after the history, every
client that got an answer got the answer of its operation at its place in the
history, and the history respects the order in time.  `Linearizes` is this
statement, over what a concurrent object says about its clients.
-/

namespace Sequential

/-- A sequential object: what an operation does and what it answers. -/
structure Object (σ α ρ : Type) where
  next : σ → α → σ
  output : σ → α → ρ

/-- The operations that were done, in order. -/
abbrev History (ι α : Type) := List (ι × α)

variable {σ α ρ ι : Type} {O : Object σ α ρ} {s s' : σ} {a : α} {r r' : ρ}
  {h h' : History ι α} {i j : ι}

namespace Object

/-- The state after a history. -/
def run (O : Object σ α ρ) (s : σ) (h : History ι α) : σ :=
  h.foldl (fun s p => O.next s p.2) s

/-- The operation of client `i` is in the history and answers `r` there. -/
def Answers (O : Object σ α ρ) (s : σ) (h : History ι α) (i : ι) (r : ρ) :
    Prop :=
  ∃ before a after, h = before ++ (i, a) :: after ∧
    r = O.output (O.run s before) a

@[simp] theorem run_append :
    O.run s (h ++ h') = O.run (O.run s h) h' := List.foldl_append

theorem run_concat : O.run s (h ++ [(i, a)]) = O.next (O.run s h) a := by
  rw [run_append]
  rfl

/-- An answer stays as it is when the history goes on. -/
theorem Answers.append (hr : O.Answers s h i r) (h' : History ι α) :
    O.Answers s (h ++ h') i r := by
  obtain ⟨before, a, after, rfl, rfl⟩ := hr
  exact ⟨before, a, after ++ h', by simp, rfl⟩

/-- The answer of the last operation. -/
theorem answers_concat :
    O.Answers s (h ++ [(i, a)]) i (O.output (O.run s h) a) :=
  ⟨h, a, [], rfl, rfl⟩

end Object

/-! ## Logs -/

/-- The operations that were done, in order, with their answers. -/
abbrev Log (ι α ρ : Type) := List ((ι × α) × ρ)

namespace Object

/-- The answers to the operations of a history, in order. -/
def outputs (O : Object σ α ρ) : σ → History ι α → List ρ
  | _, [] => []
  | s, p :: h => O.output s p.2 :: O.outputs (O.next s p.2) h

/-- The answers of a log are the answers of the object. -/
def Accepts (O : Object σ α ρ) (s : σ) (l : Log ι α ρ) : Prop :=
  l.map Prod.snd = O.outputs s (l.map Prod.fst)

theorem outputs_concat : O.outputs s (h ++ [(i, a)]) =
    O.outputs s h ++ [O.output (O.run s h) a] := by
  induction h generalizing s with
  | nil => rfl
  | cons p h ih => simp [outputs, ih, run]

/-- An answer of the object to one more operation. -/
theorem Accepts.concat {l : Log ι α ρ} (hl : O.Accepts s l)
    (hr : r = O.output (O.run s (l.map Prod.fst)) a) :
    O.Accepts s (l ++ [((i, a), r)]) := by
  simp only [Accepts, List.map_append, List.map_cons, List.map_nil]
  rw [outputs_concat, ← hl, hr]

end Object

/-! ## Linearizations -/

/-- In the history, client `i` comes before client `j`, or `j` is not in it. -/
def Precedes (h : History ι α) (i j : ι) : Prop :=
  ∃ before after, h = before ++ after ∧ i ∈ before.map Prod.fst ∧
    j ∉ before.map Prod.fst

/-- The history `h` explains a concurrent object that started at `s₀` and is
at `s`.  `asked i a` says that client `i` asked for `a`, `ended i` that it was
told that its operation is done, `answered i r` that it was told `r`, and
`before i j` that `i` was told before `j` asked. -/
structure Linearizes (O : Object σ α ρ) (s₀ s : σ) (h : History ι α)
    (asked : ι → α → Prop) (ended : ι → Prop) (answered : ι → ρ → Prop)
    (before : ι → ι → Prop) : Prop where
  state : s = O.run s₀ h
  once : (h.map Prod.fst).Nodup
  asked : ∀ i a, (i, a) ∈ h → asked i a
  complete : ∀ i, ended i → i ∈ h.map Prod.fst
  answers : ∀ i r, answered i r → O.Answers s₀ h i r
  order : ∀ i j, before i j → Precedes h i j

end Sequential
