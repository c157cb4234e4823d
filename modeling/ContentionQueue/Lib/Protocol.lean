import ContentionQueue.Lib.Machine

/-!
# Protocols

A protocol is a labelled transition relation over the events that a machine
shows.  It says in which order an observer may see them, and it knows nothing
of the state of the machine.

* `Run` is a run of a protocol over a list of events, with the lemmas that
  split it.
* `Exec.follows` is the rule for machines: when a relation between states and
  protocol states is kept by every step, the events of every run follow the
  protocol.
-/

namespace Machines

/-- A labelled transition relation over events. -/
structure Protocol (κ ε : Type) where
  step : κ → ε → κ → Prop

namespace Protocol

variable {κ ε : Type} {P : Protocol κ ε} {k k' : κ} {e : ε} {log log' : List ε}

/-- The events `log` take the protocol from `k` to `k'`. -/
inductive Run (P : Protocol κ ε) (k : κ) : List ε → κ → Prop where
  | nil : Run P k [] k
  | snoc {log k₁ e k₂} (run : Run P k log k₁) (hstep : P.step k₁ e k₂) :
      Run P k (log ++ [e]) k₂

theorem Run.single (h : P.step k e k') : P.Run k [e] k' :=
  .snoc .nil h

theorem Run.trans {k₁ : κ} (h : P.Run k log k₁) (h' : P.Run k₁ log' k') :
    P.Run k (log ++ log') k' := by
  induction h' with
  | nil => simpa using h
  | snoc _ hstep ih =>
      rw [← List.append_assoc]
      exact .snoc ih hstep

theorem run_nil_iff : P.Run k [] k' ↔ k = k' := by
  constructor
  · intro h
    generalize hlog : ([] : List ε) = log at h
    cases h with
    | nil => rfl
    | snoc => simp at hlog
  · rintro rfl
    exact .nil

theorem run_snoc_iff :
    P.Run k (log ++ [e]) k' ↔ ∃ k₁, P.Run k log k₁ ∧ P.step k₁ e k' := by
  constructor
  · intro h
    generalize hlog : log ++ [e] = log₁ at h
    cases h with
    | nil => simp at hlog
    | snoc run hstep =>
        obtain ⟨rfl, rfl⟩ : log = _ ∧ e = _ := by simpa using hlog
        exact ⟨_, run, hstep⟩
  · rintro ⟨k₁, run, hstep⟩
    exact .snoc run hstep

end Protocol

/-! ## Machines that follow a protocol -/

namespace Machine

variable {σ α ε κ : Type} {m : Machine σ α ε} {allowed : σ → α → Prop}
  {s₀ s : σ} {acts : List α} {log : List ε}

/-- When `R` relates the start to `k₀`, and the events of every step take the
protocol along with it, then the events of every run follow the protocol. -/
theorem Exec.follows {P : Protocol κ ε} {R : List ε → σ → κ → Prop} {k₀ : κ}
    (hinit : R [] s₀ k₀)
    (hstep : ∀ {acts log s k a s' evs}, m.Exec allowed s₀ acts log s →
      R log s k → allowed s a → m.step s a = some (s', evs) →
      ∃ k', P.Run k evs k' ∧ R (log ++ evs) s' k')
    (h : m.Exec allowed s₀ acts log s) :
    ∃ k, P.Run k₀ log k ∧ R log s k := by
  induction h with
  | nil => exact ⟨k₀, .nil, hinit⟩
  | snoc run hallow hs ih =>
      obtain ⟨k, hk, hR⟩ := ih
      obtain ⟨k', hk', hR'⟩ := hstep run hR hallow hs
      exact ⟨k', hk.trans hk', hR'⟩

end Machine

end Machines
