import ContentionQueue.Accounting

/-!
# Merging does not show

The callbacks of this module fold the values into the front state: each
applies `f` to its own value, and then, any number of times, pops a value and
applies `f` to that.  The runs of such callbacks, without unwinds, poison and
wrong guards, are `FoldRun`.

* `Clean` says that nothing is poisoned and that no call unwinds, which holds
  along these runs.
* `Folded` says that the front state is the fold over the values that have
  been applied.
* `merging_invisible` is the result: the front state depends on the order of
  the arrivals only.
-/

namespace ContentionQueue

open Machines State HandOff

variable {M FS V R : Type} {cfg : Config} {s s' : State M FS V R}
  {a : Action M FS V R} {acts : List (Action M FS V R)}
  {evs log : List (Event V R)} {frontState : FS} {data : Addr → M}

/-! ## Folding callbacks -/

/-- The value that each callback has taken and not yet applied. -/
abbrev Held (V : Type) := CallId → Option V

/-- What an event adds to the values that are held. -/
def Held.take (held : Held V) : Event V R → Held V
  | .callback i v => Function.update held i (some v)
  | .pop i _ v => Function.update held i (some v)
  | _ => held

/-- The values that are held after an action.  A write of the front state
applies the value of its callback. -/
def Held.next (held : Held V) (_ : State M FS V R) (a : Action M FS V R)
    (evs : List (Event V R)) : Held V :=
  match a with
  | .callback i (.frontState _) => Function.update held i none
  | _ => evs.foldl Held.take held

/-- What a schedule of folding callbacks may do: a callback writes
`f front_state v` when it holds `v`, it pops and returns when it holds
nothing, no callback unwinds, other code poisons nothing, and a call that
`assert_mutex_good` turns away does not poison the registered mutex. -/
def Folds (f : FS → V → FS) (p : State M FS V R × Held V) :
    Action M FS V R → Prop
  | .callback i .pop => p.2 i = none
  | .callback i (.frontState x) =>
      (p.2 i).map (f p.1.frontExclusive.frontState) = some x
  | .callback i (.ret _) => p.2 i = none
  | .callback _ .unwind => False
  | .step i => p.1.SparesMutex i
  | .poison _ => False
  | _ => True

instance [DecidableEq FS] (f : FS → V → FS) (p : State M FS V R × Held V) :
    (a : Action M FS V R) → Decidable (Folds f p a)
  | .callback i .pop => inferInstanceAs (Decidable (p.2 i = none))
  | .callback i (.frontState x) => inferInstanceAs
      (Decidable ((p.2 i).map (f p.1.frontExclusive.frontState) = some x))
  | .callback i (.ret _) => inferInstanceAs (Decidable (p.2 i = none))
  | .callback _ .unwind => isFalse id
  | .callback _ .peek => isTrue trivial
  | .callback _ (.mutexState _) => isTrue trivial
  | .callback _ .isQueuePoisoned => isTrue trivial
  | .callback _ .clearQueuePoison => isTrue trivial
  | .callback _ .unlocked => isTrue trivial
  | .callback _ .endUnlocked => isTrue trivial
  | .call _ _ => isTrue trivial
  | .step i => inferInstanceAs (Decidable (p.1.SparesMutex i))
  | .spuriousWake _ => isTrue trivial
  | .lock _ _ => isTrue trivial
  | .unlock _ _ => isTrue trivial
  | .poison _ => isFalse id
  | .clearPoison _ => isTrue trivial
  | .releaseLeaked _ => isTrue trivial

/-- The runs with folding callbacks in which no `process` call with a wrong
guard gets past `assert_mutex_good`. -/
def FoldRun (f : FS → V → FS) (cfg : Config) (frontState : FS)
    (data : Addr → M) (acts : List (Action M FS V R))
    (log : List (Event V R)) (s : State M FS V R) (held : Held V) : Prop :=
  ((machine M FS V R cfg).observe Held.next).Exec
    (fun p a => GuardMatches p.1 a ∧ Folds f p a)
    (State.new frontState data, fun _ => none) acts log (s, held)

/-- The events, the state and the held values of a list of actions, if each of
them is enabled and allowed. -/
def foldRun [DecidableEq FS] (f : FS → V → FS) (cfg : Config)
    (frontState : FS) (data : Addr → M) (acts : List (Action M FS V R)) :
    Option ((State M FS V R × Held V) × List (Event V R)) :=
  ((machine M FS V R cfg).observe Held.next).exec
    (fun p a => GuardMatches p.1 a ∧ Folds f p a)
    (State.new frontState data, fun _ => none) acts

theorem FoldRun.of_foldRun [DecidableEq FS] {f : FS → V → FS}
    (h : (foldRun f cfg frontState data acts).isSome) :
    FoldRun f cfg frontState data acts
      ((foldRun f cfg frontState data acts).get h).2
      ((foldRun f cfg frontState data acts).get h).1.1
      ((foldRun f cfg frontState data acts).get h).1.2 :=
  Machine.Exec.of_isSome h

theorem FoldRun.guarded {f : FS → V → FS} {held : Held V}
    (h : FoldRun f cfg frontState data acts log s held) :
    GuardedRun cfg frontState data acts log s :=
  Machine.Exec.of_observe (fun _ _ hallow => hallow.1) h

/-! ## No poison -/

/-- Whether the mutex at an address is poisoned. -/
def State.poisonAt (s : State M FS V R) (b : Addr) : Bool :=
  (s.mutexes b).poisoned

section PoisonAt

@[simp] theorem poisonAt_setMutex (s : State M FS V R) (b : Addr)
    (m : Mutex M) : (s.setMutex b m).poisonAt =
      Function.update s.poisonAt b m.poisoned := by
  funext c
  rcases eq_or_ne c b with rfl | hc
  · simp [poisonAt]
  · simp [poisonAt, hc]

@[simp] theorem update_poisonAt (s : State M FS V R) (b : Addr) :
    Function.update s.poisonAt b (s.mutexes b).poisoned = s.poisonAt :=
  Function.update_eq_self b _

@[simp] theorem poisonAt_goto (s : State M FS V R) (i : CallId)
    (f : Frame V R) (pc : Pc V R) :
    (s.goto i f pc).poisonAt = s.poisonAt := rfl

@[simp] theorem poisonAt_finish (s : State M FS V R) (i : CallId)
    (f : Frame V R) (o : Outcome R) :
    (s.finish i f o).poisonAt = s.poisonAt := rfl

@[simp] theorem poisonAt_pushFrame (s : State M FS V R) (i : CallId)
    (f : Frame V R) : (s.pushFrame i f).poisonAt = s.poisonAt := rfl

@[simp] theorem poisonAt_wakeNext (s : State M FS V R)
    (wake : TaskState → TaskState) :
    (s.wakeNext wake).poisonAt = s.poisonAt := by
  funext b
  simp [poisonAt]

end PoisonAt

/-- Whether a call unwinds out of `try_process_unchecked`. -/
def Pc.isUnwinding : Pc V R → Bool
  | .errLock _ => true
  | .errHandOff _ _ => true
  | .resumeUnwind _ _ => true
  | _ => false

/-- The queue is not poisoned, no mutex is that may be registered, and no call
unwinds out of `try_process_unchecked`. -/
structure Clean (s : State M FS V R) : Prop where
  queue : s.mutexExclusive.queuePoisoned = false
  mutex : ∀ b : Addr, s.mutexAddress = 0 ∨ s.mutexAddress = b →
    s.poisonAt b = false
  unwinding : AllFrames (fun f => f.pc.isUnwinding = false) s.frames

theorem clean_new (frontState : FS) (data : Addr → M) :
    Clean (State.new frontState data : State M FS V R) where
  queue := rfl
  mutex := fun _ _ => rfl
  unwinding := by simp [AllFrames, State.new]

theorem isUnwinding_notifyOne {pc : Pc V R} (h : pc.isUnwinding = false) :
    pc.notifyOne.isUnwinding = false := by
  cases pc <;> exact h

theorem isUnwinding_entry (m : Method V) :
    (m.entry : Pc V R).isUnwinding = false := by
  cases m <;> rfl

theorem Clean.not_unwinding (h : Clean s) {i : CallId} {f : Frame V R}
    {pc : Pc V R} (hat : s.At i f pc) : pc.isUnwinding = false :=
  hat.pc ▸ h.unwinding i f hat.frame

/-- A registered call has a mutex that is not poisoned. -/
theorem Clean.unpoisoned (h : Clean s) (hb : Basics s) {i : CallId}
    {f : Frame V R} {pc : Pc V R} (hat : s.At i f pc)
    (hreg : pc.isRegistered = true) :
    (s.mutexes f.call.mutex).poisoned = false :=
  h.mutex _ (.inr (ok_registered (hb.locals.at hat) hreg))

/-- Without unwinds of callbacks and without poison from outside, nothing is
poisoned. -/
theorem Transition.clean (ht : Transition cfg s a s' evs) (hb : Basics s)
    (hunwind : ∀ i, a ≠ .callback i .unwind) (hpoison : ∀ b, a ≠ .poison b)
    (hspares : ∀ i, a = .step i → s.SparesMutex i) (h : Clean s) :
    Clean s' := by
  have hsame : s'.mutexAddress = s.mutexAddress → s'.poisonAt = s.poisonAt →
      ∀ b : Addr, s'.mutexAddress = 0 ∨ s'.mutexAddress = b →
        s'.poisonAt b = false := by
    intro haddress hpoisonAt b hset
    rw [hpoisonAt]
    exact h.mutex b (haddress ▸ hset)
  have hregister : ∀ (f : Frame V R),
      s.mutexAddress = 0 ∨ s.mutexAddress = f.call.mutex →
        ∀ b : Addr, (f.call.mutex : Nat) = 0 ∨ (f.call.mutex : Nat) = b →
          s.poisonAt b = false := by
    intro f hset b hset'
    have hmutex : f.call.mutex = b :=
      PNat.coe_injective (hset'.resolve_left f.call.mutex.ne_zero)
    exact h.mutex b (hmutex ▸ hset)
  cases ht
  case unwind => exact absurd rfl (hunwind _)
  case poison => exact absurd rfl (hpoison _)
  -- what a clean state excludes
  case errHandOff hat => cases h.not_unwinding hat
  case errLock hat _ => cases h.not_unwinding hat
  case resumeUnwind hat => cases h.not_unwinding hat
  case queuePoisoned hq =>
    rw [h.queue] at hq
    cases hq
  case mutexPoisoned hat _ hm =>
    rw [h.unpoisoned hb hat rfl] at hm
    cases hm
  -- a mutex that is not registered is poisoned
  case lockPoisoned i f v hat _ _ hm =>
    refine ⟨h.queue, ?_, h.unwinding.update rfl⟩
    intro b hset
    have hne : b ≠ f.call.mutex := by
      rintro rfl
      have hclean := h.mutex _ hset
      rw [poisonAt, hm] at hclean
      cases hclean
    simpa [hne] using h.mutex b hset
  case mutexMismatch i f g v hat hbad =>
    refine ⟨h.queue, ?_, h.unwinding.update rfl⟩
    intro b hset
    have hne : b ≠ g := by
      rintro rfl
      have hset' := hset.resolve_left hbad.1
      have hg : f.call.mutex = b :=
        hspares i rfl f hat.frame b (by rw [hat.pc]; rfl) hset'
      exact hbad.2 (hg ▸ hset')
    simpa [hne] using h.mutex b hset
  case clearPoison c =>
    refine ⟨h.queue, ?_, h.unwinding⟩
    intro b hset
    rcases eq_or_ne b c with rfl | hne
    · simp
    · simpa [hne] using h.mutex b hset
  case mutexGood hat hgood =>
    exact ⟨h.queue, hregister _ hgood, h.unwinding.update rfl⟩
  case queryGood hat hgood =>
    exact ⟨h.queue, hregister _ hgood, h.unwinding.update rfl⟩
  case callOther =>
    exact ⟨h.queue, hsame rfl (by simp),
      h.unwinding.update (isUnwinding_entry _)⟩
  case popFront hat hpop =>
    obtain ⟨t, -, -, hx⟩ := MutexExclusive.popFront_eq_some hpop
    refine ⟨?_, hsame rfl rfl, h.unwinding.update rfl⟩
    show MutexExclusive.queuePoisoned _ = false
    rw [goto_mutexExclusive, setExclusive_mutexExclusive, hx]
    exact h.queue
  case handOff =>
    refine ⟨by simpa using h.queue, hsame (by simp) (by simp), ?_⟩
    refine AllFrames.wakeNext ?_ (fun _ => isUnwinding_notifyOne)
    exact h.unwinding.update rfl
  case clearQueuePoison => exact ⟨rfl, hsame rfl rfl, h.unwinding⟩
  case queryClear => exact ⟨rfl, hsame rfl rfl, h.unwinding.update rfl⟩
  all_goals
    first
    | exact ⟨h.queue, hsame rfl rfl, h.unwinding.update rfl⟩
    | exact ⟨h.queue, hsame rfl rfl, h.unwinding⟩
    | exact ⟨h.queue, hsame rfl (by simp), h.unwinding⟩
    | exact ⟨h.queue, hsame rfl (by simp), h.unwinding.update rfl⟩

/-- In a clean state no assertion fails. -/
theorem Clean.drops_eq_nil (h : Clean s) (ht : Transition cfg s a s' evs)
    (hb : Basics s) : drops evs = [] := by
  cases ht
  case queuePoisoned hq =>
    rw [h.queue] at hq
    cases hq
  case mutexPoisoned hat _ hm =>
    rw [h.unpoisoned hb hat rfl] at hm
    cases hm
  all_goals rfl

/-! ## The fold -/

/-- The values that have been consumed, in order. -/
def consumed (log : List (Event V R)) : List V :=
  (takings log).map Taking.value

/-- The front state is the fold over the consumed values, up to the one that a
callback has taken and not yet applied. -/
def Folded (f : FS → V → FS) (frontState : FS) (log : List (Event V R))
    (s : State M FS V R) (held : Held V) : Prop :=
  ((∀ i, held i = none) ∧
    s.frontExclusive.frontState = (consumed log).foldl f frontState) ∨
  ∃ j v vs, (∀ i, i ≠ j → held i = none) ∧ held j = some v ∧ s.InSpan j ∧
    consumed log = vs ++ [v] ∧
      s.frontExclusive.frontState = vs.foldl f frontState

section Folded

variable {f : FS → V → FS} {held : Held V} {l : Line CallId V} {i : CallId}

theorem consumed_append :
    consumed (log ++ evs) = consumed log ++ consumed evs := by
  rw [consumed, takings, List.filterMap_append, List.map_append]
  rfl

/-- Nothing is taken or applied. -/
theorem Folded.keep (h : Folded f frontState log s held)
    (hevs : consumed evs = [])
    (hfront : s'.frontExclusive = s.frontExclusive)
    (hspan : ∀ j, s.InSpan j → s'.InSpan j) :
    Folded f frontState (log ++ evs) s' held := by
  unfold Folded
  rw [consumed_append, hevs, List.append_nil, hfront]
  rcases h with h | ⟨j, v, vs, hothers, hheld, hj, hvs, hfs⟩
  · exact Or.inl h
  · exact Or.inr ⟨j, v, vs, hothers, hheld, hspan j hj, hvs, hfs⟩

/-- A callback that holds nothing runs alone, so nothing is held. -/
theorem Folded.of_none (h : Folded f frontState log s held)
    (hR : Refines log s l) (hi : s.InSpan i) (hnone : held i = none) :
    (∀ j, held j = none) ∧
      s.frontExclusive.frontState = (consumed log).foldl f frontState := by
  rcases h with h | ⟨j, v, vs, -, hheld, hj, -⟩
  · exact h
  · have hij : i = j := Baton.serving.inj
      ((hR.baton_of_inSpan hi).symm.trans (hR.baton_of_inSpan hj))
    rw [hij, hheld] at hnone
    cases hnone

/-- Call `i` takes `v`. -/
theorem Folded.take {v : V} (h : (∀ j, held j = none) ∧
      s.frontExclusive.frontState = (consumed log).foldl f frontState)
    (hevs : consumed evs = [v])
    (hfront : s'.frontExclusive = s.frontExclusive) (hi : s'.InSpan i) :
    Folded f frontState (log ++ evs) s'
      (Function.update held i (some v)) := by
  refine Or.inr ⟨i, v, consumed log, ?_, Function.update_self _ _ _, hi, ?_, ?_⟩
  · intro j hj
    rw [Function.update_of_ne hj]
    exact h.1 j
  · rw [consumed_append, hevs]
  · rw [hfront]
    exact h.2

/-- Call `i` applies the value that it holds. -/
theorem Folded.apply {x : FS} (h : Folded f frontState log s held)
    (hx : (held i).map (f s.frontExclusive.frontState) = some x) :
    Folded f frontState (log ++ []) (s.setFrontState x)
      (Function.update held i none) := by
  obtain ⟨v, hv, rfl⟩ := Option.map_eq_some_iff.mp hx
  rcases h with ⟨hnone, -⟩ | ⟨j, w, vs, hothers, hheld, -, hvs, hfs⟩
  · rw [hnone i] at hv
    cases hv
  · have hij : i = j := by
      by_contra hne
      rw [hothers i hne] at hv
      cases hv
    subst hij
    obtain rfl : w = v := Option.some.inj (hheld.symm.trans hv)
    refine Or.inl ⟨?_, ?_⟩
    · intro j
      rcases eq_or_ne j i with rfl | hj
      · exact Function.update_self _ _ _
      · rw [Function.update_of_ne hj]
        exact hothers j hj
    · rw [List.append_nil, hvs, List.foldl_append, ← hfs]
      rfl

/-- One step of folding callbacks keeps the fold. -/
theorem Transition.folded (ht : Transition cfg s a s' evs)
    (hR : Refines log s l) (hfolds : Folds f (s, held) a)
    (h : Folded f frontState log s held) :
    Folded f frontState (log ++ evs) s' (held.next s a evs) := by
  have hspan : (∀ i r, a ≠ .callback i (.ret r)) →
      ∀ j, s.InSpan j → s'.InSpan j := fun hret j hj =>
    ht.inSpan hR.basics.slots (hret j) (by rintro rfl; exact hfolds) hj
  cases ht
  case startCallback i fr g v hat _ =>
    have hline := hR.front hat rfl
    refine Folded.take ?_ rfl rfl ⟨_, Function.update_self _ _ _, rfl⟩
    rcases h with h | ⟨j, w, vs, -, -, hj, -⟩
    · exact h
    · rw [hR.baton_of_inSpan hj] at hline
      cases hline
  case pop i fr hd g o v hin _ =>
    have hi := hin.loc.inSpan rfl
    refine Folded.take (h.of_none hR hi hfolds) rfl rfl ?_
    exact ⟨_, Function.update_self _ _ _, rfl⟩
  case frontState => exact h.apply hfolds
  case frontUnlocked => exact h.apply hfolds
  case ret i fr hd g r hin =>
    obtain ⟨hnone, hfs⟩ := h.of_none hR (hin.loc.inSpan rfl) hfolds
    refine Or.inl ⟨hnone, ?_⟩
    rw [consumed_append, goto_frontExclusive, hfs]
    exact congrArg _ (List.append_nil _).symm
  case unwind => cases hfolds
  case uninit hat hslot =>
    exact (hR.basics.slots.not_uninit hat hslot).elim
  case handOff => exact h.keep rfl (by simp) (hspan (by simp))
  case errHandOff => exact h.keep rfl (by simp) (hspan (by simp))
  all_goals exact h.keep rfl rfl (hspan (by simp))

/-- The invariant of the runs of folding callbacks. -/
theorem FoldRun.invariant
    (h : FoldRun f cfg frontState data acts log s held) :
    Clean s ∧ drops log = [] ∧ Folded f frontState log s held := by
  have hall : GuardedRun cfg frontState data acts log s ∧ Clean s ∧
      drops log = [] ∧ Folded f frontState log s held := by
    unfold FoldRun at h
    generalize hp : (s, held) = p at h
    induction h generalizing s held with
    | nil =>
        cases hp
        exact ⟨.nil, clean_new _ _, rfl, .inl ⟨fun _ => rfl, rfl⟩⟩
    | snoc run hallow hstep ih =>
        rename_i p a evs p'
        obtain ⟨s₁, held₁⟩ := p
        obtain ⟨hrun, hclean, hdrops, hfolded⟩ := ih rfl
        subst hp
        obtain ⟨hs, hheld⟩ := Machine.step_of_observe hstep
        have ht := transition_of_step hs
        obtain ⟨l, -, hR⟩ := GuardedRun.refines hrun
        have hunwind : ∀ i, a ≠ .callback i .unwind := by
          rintro i rfl
          exact hallow.2
        have hpoison : ∀ b, a ≠ .poison b := by
          rintro b rfl
          exact hallow.2
        have hspares : ∀ i, a = .step i → s₁.SparesMutex i := by
          rintro i rfl
          exact hallow.2
        refine ⟨.snoc hrun hallow.1 hs,
          ht.clean hR.basics hunwind hpoison hspares hclean, ?_, ?_⟩
        · rw [drops, List.filterMap_append]
          exact List.append_eq_nil_iff.mpr
            ⟨hdrops, hclean.drops_eq_nil ht hR.basics⟩
        · subst hheld
          exact ht.folded hR hallow.2 hfolded
  exact hall.2

end Folded

/-- The values that have been consumed and the values that still wait are the
values in the order of arrival. -/
theorem Refines.consumed_append_waiting {l : Line CallId V}
    (h : Refines log s l) (hdrops : drops log = []) :
    consumed log ++ (l.baton.own ++ l.pending).map Prod.snd =
      (arrivals log).map Prod.snd := by
  have hline := l.taken_append_waiting (h.history.dropped ▸ hdrops)
  have htaken : (l.taken.map Taking.item).map Prod.snd =
      l.taken.map Taking.value := by
    rw [List.map_map]
    rfl
  rw [h.history.arrivals, ← hline, consumed, h.history.taken, ← htaken,
    ← List.map_append]

/-- A call that has ended is outside the line. -/
theorem stage_of_dead {t : TaskState} {pc : Pc V R} (h : pc.isLive = false) :
    pc.stage t = .outside := by
  cases pc <;> first | rfl | cases h

/-- When every call has ended, nothing waits. -/
theorem Refines.waiting_eq_nil {l : Line CallId V} (h : Refines log s l)
    (hdone : ∀ i f, s.frames i = some f → f.pc.isLive = false) :
    l.baton.own ++ l.pending = [] := by
  have hids : l.ids = [] := by
    rw [List.eq_nil_iff_forall_not_mem]
    intro i hi
    obtain ⟨f, hf, hlive⟩ := h.isLive_of_ids hi
    rw [hdone i f hf] at hlive
    cases hlive
  have hpending : l.pending = [] := by
    rw [Line.ids, List.append_eq_nil_iff, List.map_eq_nil_iff] at hids
    exact hids.2
  have hown : l.baton.own = [] := by
    cases hb : l.baton with
    | front i v =>
        have hstage := (l.stage_eq_front i v).mpr hb
        rw [← h.stage_eq i] at hstage
        cases hf : s.frames i with
        | none => simp [State.stage, hf] at hstage
        | some f =>
            rw [stage_of_frame hf, stage_of_dead (hdone i f hf)] at hstage
            cases hstage
    | _ => rfl
  rw [hown, hpending]
  rfl

/-- The front state is the fold over the consumed values, which are the first
values in the order of arrival.  When every call has ended it is the fold over
all of them, so two runs with the same arrivals end with the same front
state. -/
theorem merging_invisible {f : FS → V → FS} {held : Held V}
    (h : FoldRun f cfg frontState data acts log s held) :
    ((∀ i, held i = none) →
      consumed log <+: (arrivals log).map Prod.snd ∧
        s.frontExclusive.frontState = (consumed log).foldl f frontState) ∧
    ((∀ i fr, s.frames i = some fr → fr.pc.isLive = false) →
      s.frontExclusive.frontState =
        ((arrivals log).map Prod.snd).foldl f frontState ∧
      ∀ {cfg₂ : Config} {data₂ : Addr → M}
        {acts₂ : List (Action M FS V R)} {log₂ : List (Event V R)}
        {s₂ : State M FS V R} {held₂ : Held V},
        FoldRun f cfg₂ frontState data₂ acts₂ log₂ s₂ held₂ →
          (∀ i fr, s₂.frames i = some fr → fr.pc.isLive = false) →
            (arrivals log₂).map Prod.snd = (arrivals log).map Prod.snd →
              s₂.frontExclusive.frontState = s.frontExclusive.frontState) := by
  have hall : ∀ {cfg : Config} {data : Addr → M}
      {acts : List (Action M FS V R)} {log : List (Event V R)}
      {s : State M FS V R} {held : Held V},
      FoldRun f cfg frontState data acts log s held →
        (∀ i fr, s.frames i = some fr → fr.pc.isLive = false) →
          s.frontExclusive.frontState =
            ((arrivals log).map Prod.snd).foldl f frontState := by
    intro cfg data acts log s held h hdone
    obtain ⟨-, hdrops, hfolded⟩ := h.invariant
    obtain ⟨l, -, hR⟩ := h.guarded.refines
    have hsplit := hR.consumed_append_waiting hdrops
    rw [hR.waiting_eq_nil hdone, List.map_nil, List.append_nil] at hsplit
    rw [← hsplit]
    rcases hfolded with ⟨-, hfs⟩ | ⟨j, v, vs, -, -, ⟨fr, hfr, hpc⟩, -⟩
    · exact hfs
    · have hspan := stage_of_dead (t := fr.taskState) (hdone j fr hfr)
      rw [serving_of_inCallback hpc] at hspan
      cases hspan
  refine ⟨?_, ?_⟩
  · intro hnone
    obtain ⟨-, hdrops, hfolded⟩ := h.invariant
    obtain ⟨l, -, hR⟩ := h.guarded.refines
    refine ⟨⟨_, hR.consumed_append_waiting hdrops⟩, ?_⟩
    rcases hfolded with ⟨-, hfs⟩ | ⟨j, v, vs, -, hheld, -⟩
    · exact hfs
    · rw [hnone j] at hheld
      cases hheld
  · intro hdone
    refine ⟨hall h hdone, ?_⟩
    intro cfg₂ data₂ acts₂ log₂ s₂ held₂ h₂ hdone₂ hsame
    rw [hall h hdone, hall h₂ hdone₂, hsame]

/-- Call 0 appends its own value to the front state in the closure of
`unlocked`, while call 1 arrives.  Then it appends the value of call 1, which it
pops, and both calls end. -/
def foldingRun : List (Action Unit (List Nat) Nat Nat) :=
  [.call 0 ⟨0, 1, .lockAndProcess 10⟩, .step 0, .step 0, .step 0, .step 0,
    .callback 0 .unlocked,
    .call 1 ⟨1, 1, .lockAndProcess 20⟩, .step 1, .step 1, .step 1, .step 1,
    .step 1,
    .callback 0 (.frontState [10]), .callback 0 .endUnlocked, .step 0,
    .callback 0 .pop, .callback 0 (.frontState [10, 20]),
    .callback 0 (.ret 5), .step 0, .step 0, .step 0,
    .step 1, .step 1, .step 1, .step 1, .step 1, .step 1, .step 1]

/-- After `foldingRun` the front state is the fold over both values. -/
theorem merging_invisible_folding :
    let r := (foldRun (fun vs v => vs ++ [v]) ⟨.default, false⟩ []
      (fun _ => ()) foldingRun).get (by decide)
    consumed r.2 = [10, 20] ∧ r.1.1.frontExclusive.frontState =
      (consumed r.2).foldl (fun vs v => vs ++ [v]) [] := by
  intro r
  have hheld : ∀ i, r.1.2 i = none := by
    intro i
    match i with
    | 0 => rfl
    | 1 => rfl
    | i + 2 => rfl
  exact ⟨by decide,
    ((merging_invisible (FoldRun.of_foldRun (by decide))).1 hheld).2⟩

/-- The runs of calls with any guards and with folding callbacks. -/
def OpenFoldRun (f : FS → V → FS) (cfg : Config) (frontState : FS)
    (data : Addr → M) (acts : List (Action M FS V R))
    (log : List (Event V R)) (s : State M FS V R) (held : Held V) : Prop :=
  ((machine M FS V R cfg).observe Held.next).Exec (Folds f)
    (State.new frontState data, fun _ => none) acts log (s, held)

/-- Call 1 passes mutex 1 with a guard of mutex 2.  It sees that
`front_locked` is set, call 0 clears it, and call 1 pushes and goes to sleep.
Call 2 sets `front_locked` again. -/
def strayGuardRun : List (Action Unit (List Nat) Nat Nat) :=
  [.call 0 ⟨0, 1, .lockAndProcess 10⟩, .step 0, .step 0, .step 0, .step 0,
    .callback 0 (.frontState [10]),
    .lock 1 2, .call 1 ⟨1, 1, .process 2 20⟩, .step 1, .step 1,
    .callback 0 (.ret 5), .step 0, .step 0, .step 0, .step 1, .step 1,
    .call 2 ⟨2, 1, .lockAndProcess 30⟩, .step 2, .step 2, .step 2, .step 2,
    .callback 2 (.frontState [10, 30])]

/-- What `strayGuardRun` leads to. -/
def strayGuardEnd :
    (State Unit (List Nat) Nat Nat × Held Nat) × List (Event Nat Nat) :=
  (((machine Unit (List Nat) Nat Nat ⟨.default, false⟩).observe
    Held.next).exec (Folds fun vs v => vs ++ [v])
      (State.new [] fun _ => (), fun _ => none) strayGuardRun).get (by decide)

/-- After `strayGuardRun` the front state is the fold over no prefix of the
arrivals. -/
theorem merging_shows :
    ¬ ∀ (acts : List (Action Unit (List Nat) Nat Nat))
      (log : List (Event Nat Nat)) (s : State Unit (List Nat) Nat Nat)
      (held : Held Nat),
      OpenFoldRun (fun vs v => vs ++ [v]) ⟨.default, false⟩ [] (fun _ => ())
          acts log s held → (∀ i, held i = none) →
        ∃ vs, vs <+: (arrivals log).map Prod.snd ∧
          s.frontExclusive.frontState =
            vs.foldl (fun vs v => vs ++ [v]) [] := by
  intro hall
  have hrun : OpenFoldRun (fun vs v => vs ++ [v]) ⟨.default, false⟩ []
      (fun _ => ()) strayGuardRun strayGuardEnd.2 strayGuardEnd.1.1
      strayGuardEnd.1.2 := Machine.Exec.of_isSome (by decide)
  have hheld : ∀ i, strayGuardEnd.1.2 i = none := by
    intro i
    match i with
    | 0 => rfl
    | 1 => rfl
    | 2 => rfl
    | i + 3 => rfl
  obtain ⟨vs, ⟨rest, hrest⟩, hfs⟩ := hall _ _ _ _ hrun hheld
  have hfold : ∀ (vs acc : List Nat),
      vs.foldl (fun vs v => vs ++ [v]) acc = acc ++ vs := by
    intro vs
    induction vs with
    | nil => simp
    | cons v vs ih => simp [ih]
  have hvs : vs = [10, 30] := by
    rw [hfold, List.nil_append] at hfs
    exact hfs.symm
  have harrivals : (arrivals strayGuardEnd.2).map Prod.snd = [10, 20, 30] := by
    decide
  rw [harrivals, hvs] at hrest
  simp at hrest

end ContentionQueue
