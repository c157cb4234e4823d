import ContentionQueue.Progress

/-!
# Why calls hang

A run is at a standstill when a call has not ended and neither a call nor the
owner of an awaited mutex can do anything.  This module lists the causes.
There are three, for all runs: with unwinds, with calls in callbacks, and with
locks in user code.

* `State.HangCause` are the causes.
* `Run.goes_of_locked` and `Run.exists_awake` are the two halves of the
  argument: who has a mutex that is waited for, and who is awake while a call
  sleeps.
* `hang_causes` is the result.
-/

namespace ContentionQueue

open Machines State HandOff

variable {M FS V R : Type} {cfg : Config} {s : State M FS V R}
  {log : List (Event V R)} {acts : List (Action M FS V R)} {frontState : FS}
  {data : Addr → M} {i : CallId} {f : Frame V R}

/-- A call can go on, or a thread can drop the guard of a mutex that a call
waits for. -/
def State.Goes (cfg : Config) (s : State M FS V R) : Prop :=
  (∃ i, s.IsLive i ∧ s.CanGo cfg i) ∨
    ∃ t b, s.Awaited b ∧ s.guardAt b = some (.user t) ∧
      (machine M FS V R cfg).Enabled s (.unlock t b)

/-- A cause of a standstill. -/
inductive State.HangCause (log : List (Event V R)) (s : State M FS V R) :
    Prop where
  /-- A callback unwound, and a call waits for the guard that it left
  behind. -/
  | leaked {b : Addr} {i : CallId} (hawaited : s.Awaited b)
      (hguard : s.guardAt b = some (.leaked i))
      (hunwind : .callbackUnwind i ∈ log)
  /-- A call waits for a guard of user code, and the thread of that code is in
  a call itself. -/
  | kept {b : Addr} {t : ThreadId} (hawaited : s.Awaited b)
      (hguard : s.guardAt b = some (.user t)) (hcall : s.inUserCode t = false)
  /-- A callback is in a call, while a call waits for the mutex that the
  callback has, or a call sleeps in the queue. -/
  | reentered {t : ThreadId} {i j : CallId} {rest : List CallId}
      (hstack : s.threads t = j :: rest) (hi : i ∈ rest) (hspan : s.InSpan i)
      (hwaits : (∃ b, s.Awaited b ∧ s.guardAt b = some (.call i)) ∨
        ∃ k f g, s.frames k = some f ∧ f.pc = .asleep g)

/-- A call below another call is in its callback. -/
theorem Basics.inSpan_below (hb : Basics s) {t : ThreadId} {j : CallId}
    {rest : List CallId} (hstack : s.threads t = j :: rest) (hi : i ∈ rest) :
    s.InSpan i := by
  have hmem : i ∈ s.threads t := by simp [hstack, hi]
  obtain ⟨k, hk, -⟩ := (hb.nested.mem t i).mp hmem
  have hcalls := hb.nested.below t j rest hstack i hi k hk
  obtain ⟨f, hf, rfl⟩ := Option.map_eq_some_iff.mp hk
  have huser : f.pc.isUserCode = true := hcalls
  refine ⟨f, hf, ?_⟩
  cases hp : f.pc <;> rw [hp] at huser <;> first | rfl | cases huser

/-- A call runs, or it is below another call. -/
theorem Basics.at_or_below (hb : Basics s) (hf : s.frames i = some f)
    (hlive : f.pc.isLive = true) :
    s.At i f f.pc ∨ ∃ j rest, s.threads f.call.thread = j :: rest ∧
      i ∈ rest := by
  have hmem : i ∈ s.threads f.call.thread :=
    (hb.nested.mem _ _).mpr ⟨f.kind, by simp [kindOf, hf], rfl, hlive⟩
  cases hs : s.threads f.call.thread with
  | nil => simp [hs] at hmem
  | cons j rest =>
      rw [hs, List.mem_cons] at hmem
      rcases hmem with rfl | hbelow
      · exact .inl ⟨hf, by simp [State.running, hs], rfl⟩
      · exact .inr ⟨j, rest, rfl, hbelow⟩

/-- On the thread of a call that has not ended, a call runs. -/
theorem Basics.exists_at (hb : Basics s) (hlive : s.IsLive i) :
    ∃ j f, f.pc.isLive = true ∧ s.At j f f.pc := by
  obtain ⟨f, hf, hlive⟩ := hlive
  rcases hb.at_or_below hf hlive with hat | ⟨j, rest, hstack, -⟩
  · exact ⟨i, f, hlive, hat⟩
  · obtain ⟨k, hk, hthread, hlive'⟩ :=
      (hb.nested.mem f.call.thread j).mp (by simp [hstack])
    obtain ⟨f', hf', rfl⟩ := Option.map_eq_some_iff.mp hk
    have hthread' : f'.call.thread = f.call.thread := hthread
    refine ⟨j, f', hlive', hf', ?_, rfl⟩
    simp [State.running, hthread', hstack]

/-- A call that has a guard is awake and does not wait for a mutex. -/
theorem Basics.awake_of_guard (hb : Basics s) {b : Addr}
    (hf : s.frames i = some f) (hguard : f.pc.guard? = some b) :
    f.pc.isLive = true ∧ (∀ g, f.pc ≠ .asleep g) ∧ f.wants = none := by
  have hslots : f.pc.SlotsOk := hb.slots i f hf
  refine ⟨?_, ?_, ?_⟩
  · cases hp : f.pc <;> rw [hp] at hguard <;> first | rfl | cases hguard
  · intro g hp
    rw [hp] at hguard
    cases hguard
  · unfold Frame.wants
    cases hp : f.pc <;> rw [hp] at hguard hslots <;>
      first
      | rfl
      | cases hguard
      | (rw [Pc.guard?, hslots.1] at hguard
         cases hguard)

/-- While a call sleeps, a call in the middle of `process` is awake. -/
theorem Run.exists_awake (h : Run cfg frontState data acts log s)
    (hf : s.frames i = some f) {g : Addr} (hpc : f.pc = .asleep g) :
    ∃ k f', s.frames k = some f' ∧ f'.pc.isLive = true ∧
      ∀ g, f'.pc ≠ .asleep g := by
  obtain ⟨l, -, hR⟩ := h.refines
  have hids : i ∈ l.ids := (hR.mem_ids_iff_pc i).mpr ⟨f, hf, by rw [hpc]; rfl⟩
  obtain ⟨k, hk⟩ := l.exists_holder hids
  rw [← hR.stage_eq k] at hk
  cases hfk : s.frames k with
  | none => simp [State.stage, hfk, Stage.holds, Stage.isTold] at hk
  | some f' =>
      rw [stage_of_frame hfk, holds_stage, isTold_stage] at hk
      have hawake := h.awake k f' hfk
      refine ⟨k, f', hfk, ?_, ?_⟩
      · cases hp : f'.pc <;> rw [hp] at hk <;>
          simp [Pc.holdsFront, Pc.isWaiting] at hk <;> rfl
      · intro g' hp
        rw [Frame.Awake, hp] at hawake
        simp [hp, Pc.holdsFront, Pc.isWaiting, hawake rfl] at hk

/-- A mutex that a call waits for is in the hands of a call that can go on, of
user code, or of nobody that gives it back. -/
theorem Run.goes_of_locked (h : Run cfg frontState data acts log s) {b : Addr}
    {p : Place} (hawaited : s.Awaited b) (hguard : s.guardAt b = some p) :
    s.Goes cfg ∨ s.HangCause log := by
  have hb := h.basics
  cases p with
  | leaked i => exact .inr (.leaked hawaited hguard (h.leaked hguard))
  | user t =>
      cases huser : s.inUserCode t with
      | false => exact .inr (.kept hawaited hguard huser)
      | true =>
          refine .inl (.inr ⟨t, b, hawaited, hguard, ?_⟩)
          have hplace : (s.mutexes b).guard = some (.user t) := hguard
          show (step cfg s (.unlock t b)).isSome = true
          simp [step, huser, hplace]
  | call k =>
      have howner : s.guardOf k = some b := (hb.owners k b).mp hguard
      obtain ⟨f, hf, hpc⟩ := Option.bind_eq_some_iff.mp howner
      obtain ⟨hlive, hasleep, hwants⟩ := hb.awake_of_guard hf hpc
      obtain ⟨l, -, hR⟩ := h.refines
      have hdefined := (hR.frames k f hf).defined
      rcases hb.at_or_below hf hlive with hat | ⟨j, rest, hstack, hi⟩
      · rcases hat.canGo hlive hasleep hdefined with hgo | ⟨c, q, hc, -⟩
        · exact .inl (.inl ⟨k, ⟨f, hf, hlive⟩, hgo⟩)
        · rw [hwants] at hc
          cases hc
      · have hspan := hb.inSpan_below hstack hi
        exact .inr (.reentered hstack hi hspan (.inl ⟨b, hawaited, hguard⟩))

/-- A call that runs and is awake can go on, or somebody has the mutex that it
waits for. -/
theorem Run.goes_of_awake (h : Run cfg frontState data acts log s)
    (hat : s.At i f f.pc) (hlive : f.pc.isLive = true)
    (hasleep : ∀ g, f.pc ≠ .asleep g) : s.Goes cfg ∨ s.HangCause log := by
  obtain ⟨l, -, hR⟩ := h.refines
  have hdefined := (hR.frames i f hat.frame).defined
  rcases hat.canGo hlive hasleep hdefined with hgo | ⟨b, p, hwants, hguard⟩
  · exact .inl (.inl ⟨i, ⟨f, hat.frame, hlive⟩, hgo⟩)
  · exact h.goes_of_locked ⟨i, f, hat.frame, hwants⟩ hguard

/-- The causes of a standstill.  In every reachable state with a call that has
not ended, a call can go on, or a thread can drop the guard of a mutex that a
call waits for, or one of three causes is there: a callback unwound and left
its guard behind, a thread keeps a guard in user code while it is in a call, or
a callback is in a call while others wait for it. -/
theorem hang_causes (h : Run cfg frontState data acts log s)
    (hlive : ∃ i, s.IsLive i) : s.Goes cfg ∨ s.HangCause log := by
  have hb := h.basics
  obtain ⟨i, hlive⟩ := hlive
  obtain ⟨j, f, hlive, hat⟩ := hb.exists_at hlive
  by_cases hasleep : ∃ g, f.pc = .asleep g
  · obtain ⟨g, hg⟩ := hasleep
    -- somebody is awake, and runs or is below another call
    obtain ⟨k, f', hf', hlive', hawake⟩ := h.exists_awake hat.frame hg
    rcases hb.at_or_below hf' hlive' with hat' | ⟨o, rest, hstack, hk⟩
    · exact h.goes_of_awake hat' hlive' hawake
    · have hspan := hb.inSpan_below hstack hk
      have hsleeps : ∃ k f g, s.frames k = some f ∧ f.pc = .asleep g :=
        ⟨j, f, g, hat.frame, hg⟩
      exact .inr (.reentered hstack hk hspan (.inr hsleeps))
  · exact h.goes_of_awake hat hlive fun g hg => hasleep ⟨g, hg⟩

/-- `selfBlocked` is a standstill: thread 0 keeps the guard that its own call
waits for. -/
theorem hang_causes_selfBlocked :
    ¬ selfBlocked.Goes ⟨.default, false⟩ ∧
      (selfBlocked.Goes ⟨.default, false⟩ ∨ selfBlocked.HangCause []) := by
  refine ⟨?_, ?_⟩
  · rintro (⟨i, -, hgo⟩ | ⟨t, b, -, -, hunlock⟩)
    · exact not_canGo_selfBlocked i hgo
    · exact not_unlock_selfBlocked t b hunlock
  · have hrun : Run ⟨.default, false⟩ 0 (fun _ => ())
        [.lock 0 1, .call 0 ⟨0, 1, .lockAndProcess 10⟩] [] selfBlocked :=
      Machine.Exec.of_exec rfl
    exact hang_causes hrun ⟨0, _, rfl, rfl⟩

end ContentionQueue
