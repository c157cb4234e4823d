import Mathlib.Logic.Relation

/-!
# Machines and their runs

A machine is a partial step function: an action takes a state to the next
state and shows a list of events to an observer.  `none` means that the
action is not enabled.  Interleaving is the choice of the actions, so a run
of a concurrent program is a list of actions here.

There are six groups.

* Runs.  `Exec` is a run from a fixed state.  It carries the actions that were
  taken, the events that were shown and the state that was reached, and it
  takes only actions that the predicate `allowed` admits.
* The induction rules.  `Exec.invariant` is the rule for a property of the
  reached state and the events so far.  `Exec.stays` is the rule for a
  property that holds from some moment on.
* Moments of a run.  `Passed` says that a run went through a state with a
  given property, and `Always` that it went through no other.  `Took` says
  that it took a step with a given property.
* Refinement.  `Exec.refines` is the forward simulation rule: each step of the
  machine is matched by at most one step of the abstract relation.
* Two runs.  `Exec.lockstep` runs one list of actions from two related starts,
  and `Exec.unique` says that a list of actions has one result.
* Observers.  `observe` puts a second state next to the machine, which is how
  a client with variables of its own is described.

`exec` runs a list of actions, so a concrete run can be evaluated.
-/

namespace Machines

/-- A partial step function with observable events. -/
structure Machine (σ α ε : Type) where
  /-- The state after an action and the events of the action, or `none` when
  the action is not enabled. -/
  step : σ → α → Option (σ × List ε)

namespace Machine

variable {σ α ε τ κ : Type} (m : Machine σ α ε)

/-- An action is enabled when the machine has a step for it. -/
def Enabled (s : σ) (a : α) : Prop := (m.step s a).isSome

instance (s : σ) (a : α) : Decidable (m.Enabled s a) :=
  inferInstanceAs (Decidable ((m.step s a).isSome = true))

/-! ## Runs -/

/-- The runs from `s₀` that take only allowed actions. -/
inductive Exec (allowed : σ → α → Prop) (s₀ : σ) :
    List α → List ε → σ → Prop where
  | nil : Exec allowed s₀ [] [] s₀
  | snoc {acts log s a evs s'} (run : Exec allowed s₀ acts log s)
      (hallow : allowed s a) (hstep : m.step s a = some (s', evs)) :
      Exec allowed s₀ (acts ++ [a]) (log ++ evs) s'

/-- Run a list of actions, as long as each is allowed and enabled. -/
def exec (allowed : σ → α → Prop) [∀ s a, Decidable (allowed s a)] :
    σ → List α → Option (σ × List ε)
  | s, [] => some (s, [])
  | s, a :: acts =>
      if allowed s a then
        match m.step s a with
        | none => none
        | some (s', evs) =>
            match exec allowed s' acts with
            | none => none
            | some (s'', log) => some (s'', evs ++ log)
      else none

variable {m} {allowed allowed' : σ → α → Prop} {s₀ s s' s₁ : σ}
  {acts acts₁ acts₂ : List α} {log log₁ log₂ evs : List ε} {a : α}

/-- One step is a run. -/
theorem Exec.single (hallow : allowed s a)
    (hstep : m.step s a = some (s', evs)) : m.Exec allowed s [a] evs s' := by
  have h : m.Exec allowed s ([] ++ [a]) ([] ++ evs) s' :=
    .snoc .nil hallow hstep
  simpa using h

/-- Two runs in a row are a run. -/
theorem Exec.trans (h₁ : m.Exec allowed s₀ acts₁ log₁ s₁)
    (h₂ : m.Exec allowed s₁ acts₂ log₂ s) :
    m.Exec allowed s₀ (acts₁ ++ acts₂) (log₁ ++ log₂) s := by
  induction h₂ with
  | nil => simpa using h₁
  | snoc _ hallow hstep ih =>
      rw [← List.append_assoc, ← List.append_assoc]
      exact .snoc ih hallow hstep

/-- Actions that are allowed in every state that is reached are a run. -/
theorem Exec.mono_of_reached
    (himp : ∀ {acts log s a}, m.Exec allowed s₀ acts log s → allowed s a →
      allowed' s a)
    (h : m.Exec allowed s₀ acts log s) : m.Exec allowed' s₀ acts log s := by
  induction h with
  | nil => exact .nil
  | snoc run hallow hstep ih => exact .snoc ih (himp run hallow) hstep

/-- A run of stronger actions is a run of weaker ones. -/
theorem Exec.mono (himp : ∀ s a, allowed s a → allowed' s a)
    (h : m.Exec allowed s₀ acts log s) : m.Exec allowed' s₀ acts log s :=
  h.mono_of_reached fun _ => himp _ _

/-- What holds of every allowed action holds of the actions of a run. -/
theorem Exec.forall_mem {P : α → Prop} (hP : ∀ s a, allowed s a → P a)
    (h : m.Exec allowed s₀ acts log s) : ∀ a ∈ acts, P a := by
  induction h with
  | nil => simp
  | snoc _ hallow _ ih =>
      exact List.forall_mem_append.mpr ⟨ih, by simpa using hP _ _ hallow⟩

/-- What `exec` computes is a run. -/
theorem Exec.of_exec [∀ s a, Decidable (allowed s a)] :
    ∀ {acts : List α} {s s' : σ} {log : List ε},
      m.exec allowed s acts = some (s', log) → m.Exec allowed s acts log s'
  | [], s, s', log, h => by
      simp only [exec, Option.some.injEq, Prod.mk.injEq] at h
      obtain ⟨rfl, rfl⟩ := h
      exact .nil
  | a :: acts, s, s', log, h => by
      rw [exec] at h
      split at h
      · rename_i hallow
        split at h
        · cases h
        · rename_i s₁ evs hstep
          split at h
          · cases h
          · rename_i s₂ log₂ hrest
            simp only [Option.some.injEq, Prod.mk.injEq] at h
            obtain ⟨rfl, rfl⟩ := h
            exact (Exec.single hallow hstep).trans (Exec.of_exec hrest)
      · cases h

/-- The run that `exec` computes, when it gets to the end of the actions. -/
theorem Exec.of_isSome [∀ s a, Decidable (allowed s a)] {acts : List α}
    (h : (m.exec allowed s acts).isSome) :
    m.Exec allowed s acts ((m.exec allowed s acts).get h).2
      ((m.exec allowed s acts).get h).1 :=
  .of_exec (Option.some_get h).symm

/-! ## Induction rules -/

/-- The invariant rule: a property of the events so far and the state that
holds at the start and that every allowed step keeps holds along every run. -/
theorem Exec.invariant {I : List ε → σ → Prop} (hinit : I [] s₀)
    (hstep : ∀ {log s a s' evs}, I log s → allowed s a →
      m.step s a = some (s', evs) → I (log ++ evs) s')
    (h : m.Exec allowed s₀ acts log s) : I log s := by
  induction h with
  | nil => exact hinit
  | snoc _ hallow hs ih => exact hstep ih hallow hs

/-- A property of states that every allowed step from a reached state keeps
holds from the moment it first holds.  The side invariant `I` is one that is
already known to hold along the run. -/
theorem Exec.stays {I J : List ε → σ → Prop}
    (hI : ∀ {log s a s' evs}, I log s → allowed s a →
      m.step s a = some (s', evs) → I (log ++ evs) s')
    (hJ : ∀ {log s a s' evs}, I log s → J log s → allowed s a →
      m.step s a = some (s', evs) → J (log ++ evs) s')
    {log₀ : List ε} (hI₀ : I log₀ s₁) (hJ₀ : J log₀ s₁)
    (h : m.Exec allowed s₁ acts log s) : J (log₀ ++ log) s := by
  have hboth : I (log₀ ++ log) s ∧ J (log₀ ++ log) s := by
    induction h with
    | nil => simpa using ⟨hI₀, hJ₀⟩
    | snoc _ hallow hs ih =>
        rw [← List.append_assoc]
        exact ⟨hI ih.1 hallow hs, hJ ih.1 ih.2 hallow hs⟩
  exact hboth.2

/-! ## Moments of a run -/

variable (m allowed) in
/-- A run of `acts` from `s₀` to `s` went through a state with `Q`. -/
def Passed (s₀ : σ) (acts : List α) (log : List ε) (s : σ)
    (Q : List ε → σ → Prop) : Prop :=
  ∃ acts₁ log₁ s₁ acts₂ log₂, m.Exec allowed s₀ acts₁ log₁ s₁ ∧
    m.Exec allowed s₁ acts₂ log₂ s ∧ acts = acts₁ ++ acts₂ ∧
    log = log₁ ++ log₂ ∧ Q log₁ s₁

/-- The last state of a run is one of its moments. -/
theorem Passed.last {Q : List ε → σ → Prop}
    (h : m.Exec allowed s₀ acts log s) (hQ : Q log s) :
    m.Passed allowed s₀ acts log s Q :=
  ⟨acts, log, s, [], [], h, .nil, by simp, by simp, hQ⟩

/-- A moment stays a moment when the run goes on. -/
theorem Passed.snoc {Q : List ε → σ → Prop}
    (h : m.Passed allowed s₀ acts log s Q) (hallow : allowed s a)
    (hstep : m.step s a = some (s', evs)) :
    m.Passed allowed s₀ (acts ++ [a]) (log ++ evs) s' Q := by
  obtain ⟨acts₁, log₁, s₁, acts₂, log₂, h₁, h₂, rfl, rfl, hQ⟩ := h
  exact ⟨acts₁, log₁, s₁, acts₂ ++ [a], log₂ ++ evs, h₁,
    h₂.snoc hallow hstep, by simp, by simp, hQ⟩

/-- The moment before an event. -/
theorem Exec.passed_before {Q : List ε → σ → Prop} {e : ε}
    (hQ : ∀ {acts log s a s' evs}, m.Exec allowed s₀ acts log s →
      allowed s a → m.step s a = some (s', evs) → e ∈ evs → Q log s)
    (h : m.Exec allowed s₀ acts log s) (he : e ∈ log) :
    m.Passed allowed s₀ acts log s Q := by
  induction h with
  | nil => cases he
  | snoc run hallow hstep ih =>
      rcases List.mem_append.mp he with he | he
      · exact (ih he).snoc hallow hstep
      · exact (Passed.last run (hQ run hallow hstep he)).snoc hallow hstep

/-- The moment after an event. -/
theorem Exec.passed_after {Q : List ε → σ → Prop} {e : ε}
    (hQ : ∀ {acts log s a s' evs}, m.Exec allowed s₀ acts log s →
      allowed s a → m.step s a = some (s', evs) → e ∈ evs →
        Q (log ++ evs) s')
    (h : m.Exec allowed s₀ acts log s) (he : e ∈ log) :
    m.Passed allowed s₀ acts log s Q := by
  induction h with
  | nil => cases he
  | snoc run hallow hstep ih =>
      rcases List.mem_append.mp he with he | he
      · exact (ih he).snoc hallow hstep
      · exact Passed.last (run.snoc hallow hstep) (hQ run hallow hstep he)

variable (m allowed) in
/-- Every state that a run of `acts` from `s₀` to `s` went through has `Q`. -/
def Always (s₀ : σ) (acts : List α) (log : List ε) (s : σ)
    (Q : List ε → σ → Prop) : Prop :=
  ∀ acts₁ log₁ s₁ acts₂ log₂, m.Exec allowed s₀ acts₁ log₁ s₁ →
    m.Exec allowed s₁ acts₂ log₂ s → acts = acts₁ ++ acts₂ →
      log = log₁ ++ log₂ → Q log₁ s₁

/-- What always holds is not passed by. -/
theorem Always.of_passed {Q : List ε → σ → Prop}
    (h : m.Always allowed s₀ acts log s Q)
    (hpassed : m.Passed allowed s₀ acts log s fun log s => ¬ Q log s) :
    False := by
  obtain ⟨acts₁, log₁, s₁, acts₂, log₂, h₁, h₂, hacts, hlog, hQ⟩ := hpassed
  exact hQ (h _ _ _ _ _ h₁ h₂ hacts hlog)

variable (m allowed) in
/-- A run of `acts` from `s₀` to `s` took a step with `Q`, which sees the
events before the step, the state before it, the action and its events. -/
def Took (s₀ : σ) (acts : List α) (log : List ε) (s : σ)
    (Q : List ε → σ → α → List ε → Prop) : Prop :=
  ∃ acts₁ log₁ s₁ a evs s₂ acts₂ log₂, m.Exec allowed s₀ acts₁ log₁ s₁ ∧
    allowed s₁ a ∧ m.step s₁ a = some (s₂, evs) ∧
    m.Exec allowed s₂ acts₂ log₂ s ∧ acts = acts₁ ++ a :: acts₂ ∧
    log = log₁ ++ (evs ++ log₂) ∧ Q log₁ s₁ a evs

/-- The last step of a run was taken. -/
theorem Took.last {Q : List ε → σ → α → List ε → Prop}
    (h : m.Exec allowed s₀ acts log s) (hallow : allowed s a)
    (hstep : m.step s a = some (s', evs)) (hQ : Q log s a evs) :
    m.Took allowed s₀ (acts ++ [a]) (log ++ evs) s' Q :=
  ⟨acts, log, s, a, evs, s', [], [], h, hallow, hstep, .nil, rfl, by simp, hQ⟩

/-- A step that was taken stays taken when the run goes on. -/
theorem Took.trans {Q : List ε → σ → α → List ε → Prop}
    (h : m.Took allowed s₀ acts₁ log₁ s₁ Q)
    (h₂ : m.Exec allowed s₁ acts₂ log₂ s) :
    m.Took allowed s₀ (acts₁ ++ acts₂) (log₁ ++ log₂) s Q := by
  obtain ⟨acts₃, log₃, s₃, b, evs₃, s₄, acts₄, log₄, h₃, hb, hs, h₄, rfl, rfl,
    hQ⟩ := h
  exact ⟨acts₃, log₃, s₃, b, evs₃, s₄, acts₄ ++ acts₂, log₄ ++ log₂, h₃, hb, hs,
    h₄.trans h₂, by simp, by simp, hQ⟩

/-- When every step of a run meets a condition, a part of the run is a run of
steps that meet it. -/
theorem Exec.strengthen {P : σ → α → Prop}
    (h₁ : m.Exec allowed s₀ acts₁ log₁ s₁)
    (h₂ : m.Exec allowed s₁ acts₂ log₂ s)
    (hP : ¬ m.Took allowed s₀ (acts₁ ++ acts₂) (log₁ ++ log₂) s
      fun _ s a _ => ¬ P s a) :
    m.Exec (fun s a => allowed s a ∧ P s a) s₁ acts₂ log₂ s := by
  induction h₂ with
  | nil => exact .nil
  | snoc run hallow hstep ih =>
      rw [← List.append_assoc, ← List.append_assoc] at hP
      refine .snoc (ih fun htook => hP ?_) ⟨hallow, ?_⟩ hstep
      · exact htook.trans (.single hallow hstep)
      exact Classical.byContradiction fun hnot =>
        hP (Took.last (h₁.trans run) hallow hstep hnot)

/-- The step of an event, when a step shows at most one event. -/
theorem Exec.split {e : ε}
    (hone : ∀ {s a s' evs}, m.step s a = some (s', evs) →
      evs = [] ∨ ∃ e, evs = [e])
    (h : m.Exec allowed s₀ acts (log₁ ++ e :: log₂) s) :
    ∃ acts₁ s₁ a s₂ acts₂, m.Exec allowed s₀ acts₁ log₁ s₁ ∧ allowed s₁ a ∧
      m.step s₁ a = some (s₂, [e]) ∧ m.Exec allowed s₂ acts₂ log₂ s ∧
      acts = acts₁ ++ a :: acts₂ := by
  generalize hlog : log₁ ++ e :: log₂ = log at h
  induction h generalizing log₂ with
  | nil => simp at hlog
  | @snoc acts log s a evs s' run hallow hstep ih =>
      -- the last step shows `e`, or a part of what comes after `e`
      obtain ⟨rfl, rfl, hlast⟩ | ⟨log₃, rfl, rfl⟩ :
          (log = log₁ ∧ log₂ = [] ∧ evs = [e]) ∨
            ∃ log₃, log₂ = log₃ ++ evs ∧ log₁ ++ e :: log₃ = log := by
        rcases hone hstep with rfl | ⟨x, rfl⟩
        · exact .inr ⟨log₂, by simp, by simpa using hlog⟩
        · rcases List.eq_nil_or_concat log₂ with rfl | ⟨log₃, y, rfl⟩
          · obtain ⟨rfl, rfl⟩ : log₁ = log ∧ e = x := by simpa using hlog
            exact .inl ⟨rfl, rfl, rfl⟩
          · rw [List.concat_eq_append, ← List.cons_append, ← List.append_assoc]
              at hlog
            obtain ⟨hinit, rfl⟩ := List.append_singleton_inj.mp hlog
            exact .inr ⟨log₃, by simp, hinit⟩
      · exact ⟨acts, s, a, s', [], run, hallow, hlast ▸ hstep, .nil, rfl⟩
      · obtain ⟨acts₁, s₁, b, s₂, acts₂, h₁, hb, hs, h₂, rfl⟩ := ih rfl
        exact ⟨acts₁, s₁, b, s₂, acts₂ ++ [a], h₁, hb, hs,
          h₂.snoc hallow hstep, by simp⟩

/-! ## Refinement -/

/-- Forward simulation: `R` relates the start to `t₀`, and each allowed step
is matched by at most one abstract step.  Then every run is matched by an
abstract run. -/
theorem Exec.refines {R : List ε → σ → τ → Prop} {next : τ → τ → Prop}
    {t₀ : τ} (hinit : R [] s₀ t₀)
    (hstep : ∀ {acts log s t a s' evs}, m.Exec allowed s₀ acts log s →
      R log s t → allowed s a → m.step s a = some (s', evs) →
      ∃ t', Relation.ReflGen next t t' ∧ R (log ++ evs) s' t')
    (h : m.Exec allowed s₀ acts log s) :
    ∃ t, Relation.ReflTransGen next t₀ t ∧ R log s t := by
  induction h with
  | nil => exact ⟨t₀, .refl, hinit⟩
  | snoc run hallow hs ih =>
      obtain ⟨t, ht, hR⟩ := ih
      obtain ⟨t', ht', hR'⟩ := hstep run hR hallow hs
      exact ⟨t', ht.trans ht'.to_reflTransGen, hR'⟩

/-! ## Two runs -/

/-- When each step from a state is matched by a step of the same action from
every related state, the same holds of runs.  `f` is what the two events of the
two runs have in common. -/
theorem Exec.lockstep {R : σ → σ → Prop} {f : ε → κ} {P : α → Prop}
    (hstep : ∀ {s t a s' evs}, R s t → P a → m.step s a = some (s', evs) →
      ∃ t' evs', m.step t a = some (t', evs') ∧ R s' t' ∧
        evs.map f = evs'.map f)
    {t₀ : σ} (hR : R s₀ t₀) (hacts : ∀ a ∈ acts, P a)
    (h : m.Exec (fun _ _ => True) s₀ acts log s) :
    ∃ log' t, m.Exec (fun _ _ => True) t₀ acts log' t ∧ R s t ∧
      log.map f = log'.map f := by
  induction h with
  | nil => exact ⟨[], t₀, .nil, hR, rfl⟩
  | snoc _ _ hs ih =>
      obtain ⟨log', t, ht, hRt, hlog⟩ := ih fun a ha =>
        hacts a (List.mem_append_left _ ha)
      obtain ⟨t', evs', hs', hRt', hevs⟩ := hstep hRt (hacts _ (by simp)) hs
      exact ⟨log' ++ evs', t', ht.snoc trivial hs', hRt',
        by rw [List.map_append, List.map_append, hlog, hevs]⟩

/-- A list of actions has one result. -/
theorem Exec.unique {log' : List ε} (h : m.Exec allowed s₀ acts log s)
    (h' : m.Exec allowed s₀ acts log' s') : s = s' ∧ log = log' := by
  induction h generalizing log' s' with
  | nil =>
      generalize hacts : ([] : List α) = acts' at h'
      cases h' with
      | nil => exact ⟨rfl, rfl⟩
      | snoc => simp at hacts
  | @snoc acts _ _ a _ _ _ _ hs ih =>
      generalize hacts : acts ++ [a] = acts' at h'
      cases h' with
      | nil => simp at hacts
      | snoc run' _ hs' =>
          obtain ⟨rfl, rfl⟩ : acts = _ ∧ a = _ := by simpa using hacts
          obtain ⟨rfl, rfl⟩ := ih run'
          rw [hs, Option.some.injEq, Prod.mk.injEq] at hs'
          obtain ⟨rfl, rfl⟩ := hs'
          exact ⟨rfl, rfl⟩

/-! ## Observers -/

variable (m) in
/-- The machine next to an observer, which has a state of its own and changes
it with every step. -/
def observe (next : κ → σ → α → List ε → κ) : Machine (σ × κ) α ε where
  step p a := (m.step p.1 a).map fun r => ((r.1, next p.2 p.1 a r.2), r.2)

theorem step_of_observe {next : κ → σ → α → List ε → κ} {k k' : κ}
    (h : (m.observe next).step (s, k) a = some ((s', k'), evs)) :
    m.step s a = some (s', evs) ∧ k' = next k s a evs := by
  obtain ⟨⟨s₂, evs₂⟩, hstep, heq⟩ := Option.map_eq_some_iff.mp h
  simp only [Prod.mk.injEq] at heq
  obtain ⟨⟨rfl, rfl⟩, rfl⟩ := heq
  exact ⟨hstep, rfl⟩

/-- A run with an observer is a run. -/
theorem Exec.of_observe {next : κ → σ → α → List ε → κ} {k₀ : κ}
    {allowed₂ : σ × κ → α → Prop} {p : σ × κ}
    (himp : ∀ p a, allowed₂ p a → allowed p.1 a)
    (h : (m.observe next).Exec allowed₂ (s₀, k₀) acts log p) :
    m.Exec allowed s₀ acts log p.1 := by
  induction h with
  | nil => exact .nil
  | snoc _ hallow hstep ih =>
      exact .snoc ih (himp _ _ hallow) (step_of_observe hstep).1

/-- Every run can be observed. -/
theorem Exec.observed (next : κ → σ → α → List ε → κ) (k₀ : κ)
    (h : m.Exec allowed s₀ acts log s) :
    ∃ k, (m.observe next).Exec (fun p a => allowed p.1 a) (s₀, k₀) acts log
      (s, k) := by
  induction h with
  | nil => exact ⟨k₀, .nil⟩
  | @snoc acts log s a evs s' _ hallow hs ih =>
      obtain ⟨k, hrun⟩ := ih
      have hobserve : (m.observe next).step (s, k) a =
          some ((s', next k s a evs), evs) := by
        simp [observe, hs]
      exact ⟨next k s a evs, hrun.snoc hallow hobserve⟩

end Machine

end Machines
