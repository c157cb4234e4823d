import ContentionQueue.Poison

/-!
# Panics of merged tasks

When a callback unwinds after its handle has popped values, the calls that
submitted the values should learn of it.  The `Err` branch sets `PANIC_BIT` in
the task at the head of the queue only.  That call passes the bit on when its
queue-poison assertion unwinds, and drops it when it returns
`ProcessingPanicked`.

`panic_reported` is the induction along the hand-offs: in a run in which no
call that was told of a panic returns while the next task was merged into a
callback that unwound, every merged task of such a callback is told.
-/

namespace ContentionQueue

open Machines State HandOff

variable {M FS V R : Type} {cfg : Config} {s s' : State M FS V R}
  {a : Action M FS V R} {evs log : List (Event V R)}
  {acts : List (Action M FS V R)} {frontState : FS} {data : Addr → M}

/-! ## The condition -/

/-- A handle popped the value of call `o`, and the callback of the handle
unwound. -/
def Panicked (log : List (Event V R)) (o : CallId) : Prop :=
  ∃ i v, .pop i o v ∈ log ∧ .callbackUnwind i ∈ log

/-- A call that was told of a panic and takes its queue-poison assertion while
the next task was merged into a callback that unwound finds the queue
poisoned, and does not ignore it. -/
def PassesPanic (cfg : Config) (log : List (Event V R)) (s : State M FS V R)
    (a : Action M FS V R) : Prop :=
  ∀ i f g t rest, a = .step i →
    s.At i f (.assertQueueGood g .processingPanicked) →
      s.mutexExclusive.queue = t :: rest → Panicked log t.state →
        cfg.options.unwrapQueuePoison = true ∧
          s.mutexExclusive.queuePoisoned = true

/-! ## What travels along the queue -/

/-- A call that has the front, or has been told to take it, knows of the
panic. -/
def Frame.KnowsPanic (f : Frame V R) : Prop :=
  match f.pc with
  | .wait _ => f.taskState.isFront = true → f.taskState.isPanic = true
  | .asleep _ => f.taskState.isFront = true → f.taskState.isPanic = true
  | .relock _ => f.taskState.isFront = true → f.taskState.isPanic = true
  | .testFront _ => f.taskState.isFront = true → f.taskState.isPanic = true
  | .popFront _ processingPanicked => processingPanicked = true
  | .assertQueueGood _ result => result = .processingPanicked
  | .assertMutexUnpoisoned _ _ => False
  | .callback _ => False
  | .unlocked _ => False
  | .reLock _ => False
  | .handOff _ _ => False
  | _ => True

/-- Whether a call reports that its task was processed elsewhere. -/
def Pc.isElsewhere : Pc V R → Bool
  | .assertQueueGood _ .processedElsewhere => true
  | .handOff _ .processedElsewhere => true
  | .returning _ .processedElsewhere => true
  | .ending (.returned .processedElsewhere) => true
  | .done (.returned .processedElsewhere) => true
  | _ => false

/-- While a task that was merged into a callback that unwound is in the queue,
whoever has the front knows of the panic, and no such task reports that it
was processed elsewhere. -/
structure State.Reports (log : List (Event V R)) (s : State M FS V R) :
    Prop where
  ahead : ∀ t ∈ s.mutexExclusive.queue, Panicked log t.state →
    AllFrames Frame.KnowsPanic s.frames
  told : ∀ o f, s.frames o = some f → Panicked log o →
    f.pc.isElsewhere = false

section Reports

variable {l : Line CallId V} {i : CallId} {f : Frame V R} {pc : Pc V R}

theorem knowsPanic_wake (h : f.KnowsPanic) :
    (f.wake TaskState.wakeFrontTaskPanicking).KnowsPanic := by
  unfold Frame.KnowsPanic Frame.wake
  unfold Frame.KnowsPanic at h
  cases hpc : f.pc <;> rw [hpc] at h <;>
    first
    | exact h
    | exact fun _ => TaskState.isPanic_wakeFrontTaskPanicking _

theorem knowsPanic_entry (c : Call V) :
    (⟨c, .new, c.method.entry⟩ : Frame V R).KnowsPanic := by
  unfold Frame.KnowsPanic
  cases c.method <;> trivial

/-- A call without the front that has not been told to take it has nothing to
know. -/
theorem knowsPanic_of_idle (hholds : f.pc.holdsFront = false)
    (htold : (f.pc.isWaiting && f.taskState.isFront) = false) :
    f.KnowsPanic := by
  unfold Frame.KnowsPanic
  cases hpc : f.pc <;> rw [hpc] at hholds htold <;>
    first
    | exact trivial
    | (cases hholds; done)
    | (intro hfront; rw [hfront] at htold; cases htold)

end Reports

/-! ## After an unwind -/

/-- Whether a call is on its way out, or has ended. -/
def Pc.isLeaving : Pc V R → Bool
  | .errLock _ => true
  | .errHandOff _ _ => true
  | .resumeUnwind _ _ => true
  | .ending _ => true
  | .done _ => true
  | _ => false

/-- If the callback of call `i` has unwound, the call is on its way out. -/
def Frame.Leaves (log : List (Event V R)) (i : CallId) (f : Frame V R) :
    Prop :=
  .callbackUnwind i ∈ log → f.pc.isLeaving = true

section Leaves

variable {i : CallId} {f : Frame V R}

theorem isLeaving_notifyOne {pc : Pc V R} (h : pc.isLeaving = true) :
    pc.notifyOne.isLeaving = true := by
  cases pc <;> first | rfl | cases h

theorem Transition.leaves (ht : Transition cfg s a s' evs)
    (hnew : ∀ e ∈ log, (s.frames e.call).isSome = true)
    (h : ∀ i f, s.frames i = some f → f.Leaves log i) :
    ∀ i f, s'.frames i = some f → f.Leaves (log ++ evs) i := by
  have hmono : ∀ i (f : Frame V R), f.Leaves log i →
      (∀ e ∈ evs, e.call ≠ i) → f.Leaves (log ++ evs) i := by
    intro i f hf hevs he
    refine hf ((List.mem_append.mp he).resolve_right fun he => ?_)
    exact hevs _ he rfl
  refine ht.forall_frames h hmono
    (fun _ _ _ hf he => isLeaving_notifyOne (hf he)) ?_
  intro i f hi hf he
  -- a call that was not on its way out had not unwound
  have hold : ∀ {f₀}, s.frames i = some f₀ → f₀.pc.isLeaving = false →
      .callbackUnwind i ∈ evs := by
    intro f₀ hf₀ hpc
    refine (List.mem_append.mp he).resolve_left fun he => ?_
    have hleaves := h i f₀ hf₀ he
    rw [hpc] at hleaves
    cases hleaves
  have hfresh : s.frames i = none → .callbackUnwind i ∈ evs := by
    intro hnone
    refine (List.mem_append.mp he).resolve_left fun he => ?_
    have hsome : (s.frames i).isSome = true := hnew _ he
    rw [hnone] at hsome
    cases hsome
  cases ht <;> cases hi
  case callProcess hnone => simpa using hfresh hnone
  case callOther hnone => simpa using hfresh hnone
  case unwind =>
    obtain rfl := frame_of_update hf
    rfl
  case errLock =>
    obtain rfl := frame_of_update hf
    rfl
  case resumeUnwind =>
    obtain rfl := frame_of_update hf
    rfl
  case ending =>
    obtain rfl := frame_of_update hf
    rfl
  case errHandOff =>
    rw [pc_of_handOff hf rfl]
    rfl
  case spuriousWake hpc hframe =>
    simpa using hold hframe (by rw [hpc]; rfl)
  all_goals
    rename_i hloc
    first
    | simpa using hold hloc.frame (by rw [hloc.pc]; rfl)
    | simpa using hold hloc.loc.frame (by rw [hloc.loc.pc]; rfl)

theorem Run.leaves (h : Run cfg frontState data acts log s) :
    ∀ i f, s.frames i = some f → f.Leaves log i := by
  induction h with
  | nil => simp [State.new]
  | snoc run _ hstep ih =>
      exact (transition_of_step hstep).leaves (Run.isSome_of_event run) ih

end Leaves

/-! ## The induction along the hand-offs -/

section Steps

variable {l : Line CallId V} {i : CallId} {f : Frame V R} {pc : Pc V R}

theorem Panicked.of_append {o : CallId} (h : Panicked (log ++ evs) o)
    (hpop : ∀ i o v, .pop i o v ∉ evs)
    (hunwind : ∀ i, .callbackUnwind i ∉ evs) : Panicked log o := by
  obtain ⟨i, v, hp, hu⟩ := h
  exact ⟨i, v, (List.mem_append.mp hp).resolve_right (hpop i o v),
    (List.mem_append.mp hu).resolve_right (hunwind i)⟩

/-- A handle that pops a value is in a callback that has not unwound. -/
theorem Panicked.of_pop {i o o' : CallId} {v : V} {hd : QueueHandle} {g : Addr}
    (hin : s.InCallback i f hd g)
    (hleaves : ∀ i f, s.frames i = some f → f.Leaves log i)
    (h : Panicked (log ++ [.pop i o v]) o') : Panicked log o' := by
  obtain ⟨j, w, hpop, hunwind⟩ := h
  have hunwind' : .callbackUnwind j ∈ log := by simpa using hunwind
  rcases List.mem_append.mp hpop with hpop | hpop
  · exact ⟨j, w, hpop, hunwind'⟩
  · obtain ⟨rfl, -, -⟩ : j = i ∧ o' = o ∧ w = v := by simpa using hpop
    have hleaving := hleaves j f hin.loc.frame hunwind'
    rw [hin.loc.pc] at hleaving
    cases hleaving

/-- A call whose value was popped by a callback that unwound has had its value
taken. -/
theorem Refines.taken_of_panicked (h : Refines log s l) {o : CallId}
    (hp : Panicked log o) : ∃ r ∈ l.taken, r.owner = o := by
  obtain ⟨j, v, hpop, -⟩ := hp
  exact ⟨⟨j, o, v⟩, h.taken_of_pop hpop, rfl⟩

/-- A call that has not arrived, or whose task still has its value, is not
merged. -/
theorem Refines.not_panicked_of_new (h : Refines log s l) {o : CallId}
    (hnew : o ∉ l.arrivals.map Prod.fst) : ¬ Panicked log o := by
  intro hp
  obtain ⟨r, hr, rfl⟩ := h.taken_of_panicked hp
  refine hnew (List.mem_map.mpr ⟨r.item, ?_, rfl⟩)
  exact l.taken_sublist.subset (List.mem_map_of_mem hr)

/-- While the task at the head of the queue has its value, nobody in the queue
is merged. -/
theorem Refines.not_panicked_of_head (h : Refines log s l) {t : Task V}
    {rest : List (Task V)} {v : V} (hq : s.mutexExclusive.queue = t :: rest)
    (hv : t.value = some v) :
    ∀ t' ∈ s.mutexExclusive.queue, ¬ Panicked log t'.state := by
  have hslots := h.queue
  have hmerged : l.merged = [] := by
    rw [hq, List.map_cons, hv, Line.slots] at hslots
    cases hm : l.merged with
    | nil => rfl
    | cons o os => simp [hm] at hslots
  intro t' ht' hp
  obtain ⟨r, hr, howner⟩ := h.taken_of_panicked hp
  have hmem := l.mem_merged_of_taken hr (howner ▸ h.mem_ids ht')
  rw [hmerged] at hmem
  cases hmem

/-- All merged tasks in the queue were popped by one handle, so when one of
them was merged into a callback that unwound, the first one was. -/
theorem Refines.panicked_head (h : Refines log s l) {t t' : Task V}
    {rest : List (Task V)} (hq : s.mutexExclusive.queue = t :: rest)
    (ht' : t' ∈ s.mutexExclusive.queue) (hp : Panicked log t'.state) :
    Panicked log t.state := by
  obtain ⟨j, v, hpop, hunwind⟩ := hp
  have hr := h.taken_of_pop hpop
  have ho := l.mem_merged_of_taken hr (h.mem_ids ht')
  have hhead : t.state ∈ l.merged := by
    have hslots := h.queue
    rw [hq, List.map_cons, Line.slots] at hslots
    cases hm : l.merged with
    | nil => simp [hm] at ho
    | cons o os =>
        rw [hm, List.map_cons, List.cons_append] at hslots
        have hstate := (Prod.mk.inj (List.cons.inj hslots).1).1
        rw [hstate]
        exact List.mem_cons_self
  obtain ⟨j₀, v₀, -, hpop₀, hr₀⟩ := h.pop_of_merged hhead
  obtain rfl : j₀ = j := l.taker_unique hr₀ hr hhead ho
  exact ⟨j₀, v₀, hpop₀, hunwind⟩

/-- While a call is in its callback, no other call has anything to know. -/
theorem Refines.knowsPanic_of_serving (h : Refines log s l)
    (hserving : l.baton = .serving i) {j : CallId} (hj : j ≠ i)
    (hf : s.frames j = some f) : f.KnowsPanic := by
  have hstage := (h.frames j f hf).stage
  have hholder : l.baton.holder l.ids ≠ some j := by
    rw [hserving]
    exact fun heq => hj (Option.some.inj heq).symm
  refine knowsPanic_of_idle ?_ ?_
  · rw [← holds_stage f.taskState, hstage, Bool.eq_false_iff]
    exact fun hholds => hholder ((l.holds_iff j).mp hholds).2
  · rw [← isTold_stage, hstage, Bool.eq_false_iff]
    exact fun htold => hholder ((l.isTold_iff j).mp htold).2

/-- What an action leaves of the knowledge of a panic. -/
theorem Transition.ahead (ht : Transition cfg s a s' evs)
    (hR : Refines log s l)
    (hleaves : ∀ i f, s.frames i = some f → f.Leaves log i)
    (hP : PassesPanic cfg log s a) (h : s.Reports log) :
    ∀ t ∈ s'.mutexExclusive.queue, Panicked (log ++ evs) t.state →
      AllFrames Frame.KnowsPanic s'.frames := by
  have hkeep : (∀ i o v, .pop i o v ∉ evs) → (∀ i, .callbackUnwind i ∉ evs) →
      s'.mutexExclusive.queue = s.mutexExclusive.queue →
      (AllFrames Frame.KnowsPanic s.frames →
        AllFrames Frame.KnowsPanic s'.frames) →
      ∀ t ∈ s'.mutexExclusive.queue, Panicked (log ++ evs) t.state →
        AllFrames Frame.KnowsPanic s'.frames := by
    intro hpop hunwind hq hframes t ht hp
    exact hframes (h.ahead t (hq ▸ ht) (hp.of_append hpop hunwind))
  have hat : ∀ {i f pc}, AllFrames Frame.KnowsPanic s.frames → s.At i f pc →
      ({ f with pc := pc } : Frame V R).KnowsPanic := by
    rintro i f pc hall ⟨hf, -, rfl⟩
    exact hall i f hf
  -- a task of the queue after a pop was there before, with the same call
  have hset : ∀ {n o t} {x : Option V},
      s.mutexExclusive.queue[n]? = some ⟨o, x⟩ →
        t ∈ s.mutexExclusive.queue.set n ⟨o, none⟩ →
          ∃ t₀ ∈ s.mutexExclusive.queue, t₀.state = t.state := by
    intro n o t x htask ht
    rcases List.mem_or_eq_of_mem_set ht with hold | rfl
    · exact ⟨t, hold, rfl⟩
    · exact ⟨_, List.mem_of_getElem? htask, rfl⟩
  cases ht
  case flip i f g value hloc hlocked =>
    have hfree : l.baton = .free := by
      by_contra hbusy
      rw [hR.locked.mpr hbusy] at hlocked
      cases hlocked
    have hempty : s.mutexExclusive.queue = [] := by
      have hslots := hR.queue
      obtain ⟨hmerged, hpending⟩ := l.idle hfree
      simpa [Line.slots, hmerged, hpending] using hslots
    intro t ht
    have hold : t ∈ s.mutexExclusive.queue := ht
    rw [hempty] at hold
    cases hold
  case push i f g value hloc =>
    intro t ht hp
    have hp' := hp.of_append (by simp) (by simp)
    rcases List.mem_append.mp ht with hold | hnew
    · have hnew := ((hR.at hloc).pushing rfl).2
      refine AllFrames.update (h.ahead t hold hp') ?_
      simp [Frame.KnowsPanic, hnew]
    · obtain rfl := List.mem_singleton.mp hnew
      exact absurd hp' (hR.not_panicked_of_new ((hR.at hloc).arrived rfl))
  case popFront i f g b result x hloc hpop =>
    intro t ht hp
    have hp' := hp.of_append (by simp) (by simp)
    obtain ⟨t₀, hq, hvalue, -⟩ := MutexExclusive.popFront_eq_some hpop
    have hold : t ∈ s.mutexExclusive.queue :=
      hq ▸ List.mem_cons_of_mem _ ht
    have hall := h.ahead t hold hp'
    have hb : b = true := hat hall hloc
    refine hall.update ?_
    show result = .processingPanicked
    cases hv : t₀.value with
    | some v => exact absurd hp' (hR.not_panicked_of_head hq hv t hold)
    | none =>
        have hmerged := MutexExclusive.popFront_merged hpop (hvalue.trans hv)
        rwa [hb] at hmerged
  case resultPanicked i f g hloc hgood =>
    intro t ht hp
    have hp' := hp.of_append (by simp) (by simp)
    obtain ⟨t₀, rest, hq⟩ := List.exists_cons_of_ne_nil (List.ne_nil_of_mem ht)
    have hhead := hR.panicked_head hq ht hp'
    obtain ⟨hunwrap, hpoison⟩ := hP i f g t₀ rest rfl hloc hq hhead
    exact absurd ((hgood hunwrap).symm.trans hpoison) (by simp)
  case unwind i f hd g hin =>
    intro t _ _ j f' hf'
    rcases eq_or_ne j i with rfl | hj
    · obtain rfl := frame_of_update hf'
      exact trivial
    · rw [goto_frames, Function.update_of_ne hj] at hf'
      exact hR.knowsPanic_of_serving (hR.serving hin.loc rfl) hj hf'
  case pop hin htask =>
    intro t ht hp
    obtain ⟨t₀, ht₀, hstate⟩ := hset htask ht
    have hp' := hstate ▸ hp.of_pop hin hleaves
    exact (hat (h.ahead t₀ ht₀ hp') hin.loc).elim
  case popPanic hin htask =>
    intro t ht hp
    have hp' := hp.of_append (by simp) (by simp)
    obtain ⟨t₀, ht₀, hstate⟩ := hset htask ht
    exact (hat (h.ahead t₀ ht₀ (hstate ▸ hp')) hin.loc).elim
  case errHandOff hloc =>
    refine hkeep (by simp) (by simp) (by rw [wakeNext_queue]; rfl) ?_
    intro hall
    refine AllFrames.wakeNext ?_ fun _ => knowsPanic_wake
    exact hall.update trivial
  case handOff hloc =>
    exact hkeep (by simp) (by simp) (by simp) fun hall => (hat hall hloc).elim
  case callOther =>
    exact hkeep (by simp) (by simp) rfl fun hall =>
      hall.update (knowsPanic_entry _)
  case wait hloc =>
    refine hkeep (by simp) (by simp) rfl fun hall => ?_
    have hknows := hat hall hloc
    exact hall.update hknows
  case relock hloc _ | testNotFront hloc _ =>
    refine hkeep (by simp) (by simp) rfl fun hall => ?_
    have hknows := hat hall hloc
    exact hall.update hknows
  case testFront hloc hfront =>
    exact hkeep (by simp) (by simp) rfl fun hall =>
      hall.update (hat hall hloc hfront)
  case spuriousWake i f g hframe hpc =>
    refine hkeep (by simp) (by simp) rfl fun hall => hall.update ?_
    have hknows := hall i f hframe
    rw [Frame.KnowsPanic, hpc] at hknows
    exact hknows
  case resultProcess hloc _ | resultElsewhere hloc _ =>
    exact hkeep (by simp) (by simp) rfl fun hall =>
      absurd (hat hall hloc) (by simp [Frame.KnowsPanic])
  case startCallback hloc _ | mutexPoisoned hloc _ _ =>
    exact hkeep (by simp) (by simp) rfl fun hall => (hat hall hloc).elim
  case reLock hloc _ =>
    exact hkeep (by simp) (by simp) rfl fun hall => (hat hall hloc).elim
  case endUnlocked hloc =>
    exact hkeep (by simp) (by simp) rfl fun hall => (hat hall hloc).elim
  case unlocked hin | ret hin =>
    exact hkeep (by simp) (by simp) rfl fun hall => (hat hall hin.loc).elim
  all_goals
    first
    | exact hkeep (by simp) (by simp) rfl id
    | exact hkeep (by simp) (by simp) rfl fun hall => hall.update trivial

theorem isElsewhere_notifyOne (pc : Pc V R) :
    pc.notifyOne.isElsewhere = pc.isElsewhere := by
  cases pc <;> rfl

/-- A call reports that its task was processed elsewhere when it pops its own
task, has not been told of a panic, and finds no value. -/
theorem Transition.elsewhere_self (ht : Transition cfg s a s' evs)
    (hi : a.call? = some i) (hf : s'.frames i = some f)
    (hpc : f.pc.isElsewhere = true) :
    (∃ f₀, s.frames i = some f₀ ∧ f₀.pc.isElsewhere = true) ∨
      ∃ f₀ g, s.At i f₀ (.popFront g false) := by
  have hold : ∀ {f₀ pc}, s.At i f₀ pc → pc.isElsewhere = true →
      ∃ f₀, s.frames i = some f₀ ∧ f₀.pc.isElsewhere = true :=
    fun hloc helsewhere => ⟨_, hloc.frame, by rw [hloc.pc, helsewhere]⟩
  cases ht <;> cases hi
  case popFront g b result x hpop hloc =>
    obtain rfl := frame_of_update hf
    have hresult : result = .processedElsewhere := by
      cases result <;> first | rfl | cases hpc
    have hmerged := MutexExclusive.popFront_merged hpop (by rw [hresult]; rfl)
    cases b with
    | false => exact Or.inr ⟨_, _, hloc⟩
    | true =>
        rw [hresult] at hmerged
        cases hmerged
  case resultElsewhere hloc => exact Or.inl (hold hloc rfl)
  case handOff result hloc =>
    rw [pc_of_handOff hf rfl] at hpc
    refine Or.inl (hold hloc ?_)
    cases result <;> first | rfl | cases hpc
  case errHandOff =>
    rw [pc_of_handOff hf rfl] at hpc
    cases hpc
  case returnProcess result _ _ _ hloc =>
    obtain rfl := frame_of_update hf
    refine Or.inl (hold hloc ?_)
    cases result <;> first | rfl | cases hpc
  case returnOther result _ hloc =>
    obtain rfl := frame_of_update hf
    refine Or.inl (hold hloc ?_)
    cases result <;> first | rfl | cases hpc
  case ending outcome hloc =>
    obtain rfl := frame_of_update hf
    refine Or.inl (hold hloc ?_)
    rcases outcome with result | answer | p
    · cases result <;> first | rfl | cases hpc
    · cases hpc
    · cases hpc
  case callOther c _ _ _ =>
    obtain rfl := frame_of_update hf
    cases hm : c.method <;> simp [hm, Method.entry, Pc.isElsewhere] at hpc
  all_goals
    first
    | (obtain rfl := frame_of_update hf; cases hpc)
    | (rename_i hin
       rw [hin.pc_eq hf] at hpc
       cases hpc)

/-- A call becomes one that was merged into a callback that unwound when the
callback unwinds.  It is in the queue then, or it is the call that unwinds. -/
theorem Transition.panicked_before (ht : Transition cfg s a s' evs)
    (hR : Refines log s l)
    (hleaves : ∀ i f, s.frames i = some f → f.Leaves log i) {o : CallId}
    (hp : Panicked (log ++ evs) o) :
    Panicked log o ∨ ∃ j, l.baton = .serving j ∧ (o = j ∨ o ∈ l.ids) := by
  cases ht
  case pop hin htask => exact Or.inl (hp.of_pop hin hleaves)
  case unwind i f hd g hin =>
    obtain ⟨j, v, hpop, hunwind⟩ := hp
    have hpop' : .pop j o v ∈ log := by simpa using hpop
    rcases List.mem_append.mp hunwind with hunwind | hunwind
    · exact Or.inl ⟨j, v, hpop', hunwind⟩
    obtain rfl : j = i := by simpa using hunwind
    have hserving := hR.serving hin.loc rfl
    have hr := hR.taken_of_pop hpop'
    refine Or.inr ⟨j, hserving, ?_⟩
    exact ((l.served j hserving).2 _ hr rfl).imp id fun hmerged =>
      List.mem_append_left _ hmerged
  all_goals exact Or.inl (hp.of_append (by simp) (by simp))

/-- While a call is in its callback, neither that call nor a call in the queue
is about to miss a panic. -/
theorem Refines.not_elsewhere_of_serving (hR : Refines log s l)
    (hserving : l.baton = .serving i) {o : CallId} (ho : o = i ∨ o ∈ l.ids) :
    ∃ f, s.frames o = some f ∧ f.pc.isElsewhere = false ∧
      ∀ g, f.pc ≠ .popFront g false := by
  have hstage : ∀ {f}, s.frames i = some f →
      f.pc.stage f.taskState = .serving := fun hf =>
    (hR.frames i _ hf).stage.trans ((l.stage_eq_serving i).mpr hserving)
  rcases ho with rfl | hids
  · cases hf : s.frames o with
    | none =>
        have hnone := hR.stage_eq o
        rw [(l.stage_eq_serving o).mpr hserving] at hnone
        simp [State.stage, hf] at hnone
    | some f =>
        have hserved := hstage hf
        refine ⟨f, rfl, ?_, fun g hpc => ?_⟩
        · cases hpc : f.pc <;>
            first | rfl | (rw [hpc] at hserved; cases hserved)
        · rw [hpc] at hserved
          cases hserved
  · obtain ⟨f, hf, hqueued⟩ := (hR.mem_ids_iff_pc o).mp hids
    have ho : o ≠ i := by
      rintro rfl
      refine l.not_mem_ids_of_person ?_ hids
      rw [hserving]
      rfl
    have hknows := hR.knowsPanic_of_serving hserving ho hf
    refine ⟨f, hf, ?_, fun g hpc => ?_⟩
    · cases hpc : f.pc <;> first | rfl | (rw [hpc] at hqueued; cases hqueued)
    · rw [Frame.KnowsPanic, hpc] at hknows
      cases hknows

/-- What an action leaves of the reports. -/
theorem Transition.told (ht : Transition cfg s a s' evs)
    (hR : Refines log s l) (hpop : s.PopOk log)
    (hleaves : ∀ i f, s.frames i = some f → f.Leaves log i)
    (h : s.Reports log) {o : CallId} (hf : s'.frames o = some f)
    (hp : Panicked (log ++ evs) o) : f.pc.isElsewhere = false := by
  rw [Bool.eq_false_iff]
  intro hpc
  have hold : (∃ f₀, s.frames o = some f₀ ∧ f₀.pc.isElsewhere = true) ∨
      ∃ f₀ g, s.At o f₀ (.popFront g false) := by
    by_cases hi : a.call? = some o
    · exact ht.elsewhere_self hi hf hpc
    obtain ⟨f₀, hf₀, -, hpc₀⟩ := ht.pc_before hi hf
      (q := fun pc => pc.isElsewhere = true)
      (by simp [isElsewhere_notifyOne]) hpc
    exact Or.inl ⟨f₀, hf₀, hpc₀⟩
  rcases ht.panicked_before hR hleaves hp with hp | ⟨j, hserving, ho⟩
  · rcases hold with ⟨f₀, hf₀, hpc₀⟩ | ⟨f₀, g, hat⟩
    · rw [h.told o f₀ hf₀ hp] at hpc₀
      cases hpc₀
    · -- the task of the call is still in the queue
      obtain ⟨t, rest, hq, rfl⟩ := hpop.head o f₀ g false hat.frame hat.pc
      have hknows := h.ahead t (by simp [hq]) hp _ f₀ hat.frame
      rw [Frame.KnowsPanic, hat.pc] at hknows
      cases hknows
  · obtain ⟨f₁, hf₁, hpc₁, hpop₁⟩ := hR.not_elsewhere_of_serving hserving ho
    rcases hold with ⟨f₀, hf₀, hpc₀⟩ | ⟨f₀, g, hat⟩
    · rw [hf₁, Option.some.injEq] at hf₀
      rw [← hf₀, hpc₁] at hpc₀
      cases hpc₀
    · have hf₀ := hat.frame
      rw [hf₁, Option.some.injEq] at hf₀
      exact hpop₁ g (hf₀ ▸ hat.pc)

theorem Run.reports (h : Run cfg frontState data acts log s)
    (hP : ¬ Run.Took cfg frontState data acts log s
      fun log s a _ => ¬ PassesPanic cfg log s a) : s.Reports log := by
  induction h with
  | nil => exact ⟨by simp [State.new, MutexExclusive.new], by simp [State.new]⟩
  | snoc run hallow hstep ih =>
      have hreports := ih fun htook => hP (htook.trans (.single hallow hstep))
      have hpasses := Classical.byContradiction fun hnot =>
        hP (Machine.Took.last run hallow hstep hnot)
      obtain ⟨l, -, hR⟩ := Run.refines run
      have ht := transition_of_step hstep
      have hleaves := Run.leaves run
      exact ⟨ht.ahead hR hleaves hpasses hreports, fun o f =>
        ht.told hR hR.popOk hleaves hreports⟩

/-- A handle pops the values of other calls. -/
theorem Run.pop_ne (h : Run cfg frontState data acts log s) {i o : CallId}
    {v : V} (he : .pop i o v ∈ log) : i ≠ o := by
  induction h with
  | nil => cases he
  | snoc run hallow hstep ih =>
      rcases List.mem_append.mp he with he | he
      · exact ih he
      obtain ⟨l, -, hR⟩ := Run.refines run
      cases transition_of_step hstep <;> simp only [List.mem_singleton,
        List.not_mem_nil, reduceCtorEq, Event.pop.injEq] at he
      case pop hin htask he =>
        obtain ⟨rfl, rfl, rfl⟩ := he
        rintro rfl
        have hmem := List.mem_map_of_mem (f := Task.state)
          (List.mem_of_getElem? htask)
        obtain ⟨f, hf, hqueued⟩ := (hR.popOk.mem_pc i).mp hmem
        rw [hin.pc_eq hf] at hqueued
        cases hqueued

end Steps

/-! ## Runs that do not clear the queue poison -/

/-- Whether the action clears the queue poison, or starts a call that does. -/
def Action.clearsPoison : Action M FS V R → Bool
  | .call _ ⟨_, _, .clearQueuePoison⟩ => true
  | .callback _ .clearQueuePoison => true
  | _ => false

/-- Whether a call has read its `PANIC_BIT`, and will act on it. -/
def Pc.carriesPanic : Pc V R → Bool
  | .popFront _ processingPanicked => processingPanicked
  | .assertQueueGood _ .processingPanicked => true
  | _ => false

/-- Nobody clears the queue poison, and a call that was told of a panic was
told of it with the queue poisoned. -/
structure State.Uncleared (s : State M FS V R) : Prop where
  method : AllFrames (fun f => f.call.method ≠ .clearQueuePoison) s.frames
  told : AllFrames (fun f => f.taskState.isPanic = true ∨
    f.pc.carriesPanic = true → s.mutexExclusive.queuePoisoned = true) s.frames

section Uncleared

variable {i : CallId} {f : Frame V R}

theorem carriesPanic_notifyOne (pc : Pc V R) :
    pc.notifyOne.carriesPanic = pc.carriesPanic := by
  cases pc <;> rfl

theorem Transition.uncleared_method (ht : Transition cfg s a s' evs)
    (ha : a.clearsPoison = false)
    (h : AllFrames (fun f => f.call.method ≠ .clearQueuePoison) s.frames) :
    AllFrames (fun f => f.call.method ≠ .clearQueuePoison) s'.frames := by
  intro i f hf
  cases hold : s.frames i with
  | some f₀ =>
      obtain ⟨f', hf', hcall⟩ := ht.call_of_frame hold
      rw [hf, Option.some.injEq] at hf'
      rw [hf', hcall]
      exact h i f₀ hold
  | none =>
      intro hm
      rw [ht.eq_call hold hf] at ha
      obtain ⟨⟨t, m, method⟩, t, pc⟩ := f
      obtain rfl : method = .clearQueuePoison := hm
      cases ha

theorem Transition.uncleared (ht : Transition cfg s a s' evs)
    (ha : a.clearsPoison = false) (h : s.Uncleared) : s'.Uncleared := by
  refine ⟨ht.uncleared_method ha h.method, ?_⟩
  -- a call that goes on has read no more than before
  have hgoto : ∀ {i f pc pc'}, s.At i f pc → pc'.carriesPanic = false →
      AllFrames (fun f => f.taskState.isPanic = true ∨
        f.pc.carriesPanic = true → s.mutexExclusive.queuePoisoned = true)
        (Function.update s.frames i (some { f with pc := pc' })) := by
    intro i f pc pc' hat hpc
    refine h.told.update fun htold => h.told i f hat.frame ?_
    rw [hpc] at htold
    exact Or.inl (htold.resolve_right (by simp))
  cases ht
  case errHandOff => exact fun _ _ _ _ => by rw [wakeNext_queuePoisoned]; rfl
  case queryClear hat hmethod => exact absurd hmethod (h.method _ _ hat.frame)
  case clearQueuePoison => cases ha
  case handOff hat =>
    rw [wakeNext_queuePoisoned]
    refine AllFrames.wakeNext (hgoto hat rfl) fun f hf htold => hf ?_
    simpa [Frame.wake, carriesPanic_notifyOne] using htold
  case callProcess => exact h.told.update (by simp [Pc.carriesPanic])
  case callOther c _ _ _ =>
    refine h.told.update ?_
    cases c.method <;> simp [Method.entry, Pc.carriesPanic]
  case contended => exact h.told.update (by simp [Pc.carriesPanic])
  case testFront hat _ =>
    refine h.told.update fun htold => h.told _ _ hat.frame ?_
    exact Or.inl (htold.elim id id)
  case popFront i f g b result x hat hpop =>
    obtain ⟨t, -, -, hx⟩ := MutexExclusive.popFront_eq_some hpop
    have hpoison : x.queuePoisoned = s.mutexExclusive.queuePoisoned := by
      rw [hx]
    show AllFrames (fun f => _ → x.queuePoisoned = true) _
    rw [hpoison]
    refine h.told.update fun htold => h.told i f hat.frame ?_
    refine htold.imp id fun hresult => ?_
    have hpanicked : result = .processingPanicked := by
      cases result <;> first | rfl | cases hresult
    have hmerged := MutexExclusive.popFront_merged hpop (by rw [hpanicked]; rfl)
    rw [hat.pc]
    cases b with
    | true => rfl
    | false =>
        rw [hpanicked] at hmerged
        cases hmerged
  case spuriousWake hframe hpc =>
    refine h.told.update fun htold => h.told _ _ hframe ?_
    exact Or.inl (htold.resolve_right (by simp [Pc.carriesPanic]))
  all_goals
    first
    | exact h.told
    | exact hgoto ‹_› rfl
    | exact hgoto (State.InCallback.loc ‹_›) rfl

theorem Run.uncleared (h : Run cfg frontState data acts log s)
    (ha : ∀ a ∈ acts, a.clearsPoison = false) : s.Uncleared := by
  induction h with
  | nil => exact ⟨by simp [AllFrames, State.new], by simp [AllFrames, State.new]⟩
  | snoc run hallow hstep ih =>
      have hs := ih fun a hmem => ha a (List.mem_append_left _ hmem)
      exact (transition_of_step hstep).uncleared (ha _ (by simp)) hs

end Uncleared

/-- With `unwrap_queue_poison` set, calls pass a panic on as long as nobody
clears the queue poison. -/
theorem Run.passesPanic (hopt : cfg.options.unwrapQueuePoison = true)
    (ha : ∀ a ∈ acts, a.clearsPoison = false) :
    ¬ Run.Took cfg frontState data acts log s
      fun log s a _ => ¬ PassesPanic cfg log s a := by
  rintro ⟨acts₁, log₁, s₁, a, evs, s₂, acts₂, log₂, h₁, -, -, -, rfl, -, hnot⟩
  refine hnot fun i f g t rest _ hat _ _ => ⟨hopt, ?_⟩
  have hs := Run.uncleared h₁ fun a hmem => ha a (List.mem_append_left _ hmem)
  exact hs.told i f hat.frame (Or.inr (by rw [hat.pc]; rfl))

/-! ## The rule -/

/-- When every call that is told of a panic passes it on to a next task that
was merged into a callback that unwound, no merged task of such a callback is
reported as processed. -/
theorem panic_reported (h : Run cfg frontState data acts log s)
    (hP : ¬ Run.Took cfg frontState data acts log s
      fun log s a _ => ¬ PassesPanic cfg log s a)
    {i o : CallId} {v : V} (hpop : .pop i o v ∈ log)
    (hunwind : .callbackUnwind i ∈ log) {f : Frame V R} {outcome : Outcome R}
    (hf : s.frames o = some f) (hpc : f.pc = .done outcome) :
    outcome = .returned .processingPanicked ∨ ∃ p, outcome = .unwound p := by
  obtain ⟨l, -, hR⟩ := h.refines
  have hpast := h.callPast
  have hmerged : IsMerged log o := ⟨i, v, h.pop_ne hpop, hpop⟩
  have hr : (⟨i, o, v⟩ : Taking CallId V) ∈ takings log :=
    mem_takings.mpr (.inr hpop)
  obtain ⟨f', hf', hv⟩ := hR.value_of_taking hpast hr
  obtain rfl : f = f' := Option.some.inj (hf.symm.trans hf')
  have hok : f.pc.Ok s.mutexAddress f.call := hR.basics.locals o f hf
  have hp := (hpast o f hf).past
  rw [hpc] at hok hp
  cases outcome with
  | unwound p => exact Or.inr ⟨p, rfl⟩
  | answered answer =>
      have hquery : f.call.method.value? = none := hok
      rw [hv] at hquery
      cases hquery
  | returned result =>
      cases result with
      | processingPanicked => exact Or.inl rfl
      | processed r =>
          obtain ⟨j, hj, hcons⟩ := hR.consumptions_of_merged hpast hf hv hmerged
          rw [(hR.consumptions_of_called hpast hf hv hp.1).1] at hcons
          simp only [List.cons.injEq, Taking.mk.injEq, and_true] at hcons
          exact absurd hcons.symm hj
      | processedElsewhere =>
          have htold := (h.reports hP).told o f hf ⟨i, v, hpop, hunwind⟩
          rw [hpc] at htold
          cases htold

/-- The callback of call 0 pops the values of calls 1 and 2 and unwinds.  The
guard that it left behind is given back, and call 0 hands off. -/
def panickedRun : List (Action Unit Nat Nat Nat) :=
  [.call 0 ⟨0, 1, .lockAndProcess 10⟩, .step 0, .step 0, .step 0, .step 0,
    .callback 0 .unlocked,
    .call 1 ⟨1, 1, .lockAndProcess 20⟩, .step 1, .step 1, .step 1, .step 1,
    .step 1,
    .call 2 ⟨2, 1, .lockAndProcess 30⟩, .step 2, .step 2, .step 2, .step 2,
    .step 2,
    .callback 0 .endUnlocked, .step 0, .callback 0 .pop, .callback 0 .pop,
    .callback 0 .unwind, .releaseLeaked 1, .step 0, .step 0, .step 0, .step 0]

/-- After `panickedRun` calls 1 and 2 go to their ends. -/
def reportedRun : List (Action Unit Nat Nat Nat) :=
  panickedRun ++ [.step 1, .step 1, .step 1, .step 1, .step 1, .step 1, .step 1,
    .step 1, .step 2, .step 2, .step 2, .step 2, .step 2, .step 2, .step 2,
    .step 2]

/-- What `reportedRun` leads to. -/
def reportedEnd : State Unit Nat Nat Nat × List (Event Nat Nat) :=
  (run ⟨.default, true⟩ 0 (fun _ => ()) reportedRun).get (by decide)

/-- In `reportedRun`, call 2 is not reported as processed. -/
theorem panic_reported_reportedRun :
    reportedEnd.1.frames 2 = some ⟨⟨2, 1, .lockAndProcess 30⟩, ⟨3⟩,
        .done (.unwound .queuePoisoned)⟩ ∧
      (Outcome.unwound .queuePoisoned =
          (.returned .processingPanicked : Outcome Nat) ∨
        ∃ p, Outcome.unwound .queuePoisoned = (.unwound p : Outcome Nat)) := by
  have hrun : Run ⟨.default, true⟩ 0 (fun _ => ()) reportedRun reportedEnd.2
      reportedEnd.1 := Run.of_run (by decide)
  have hframe : reportedEnd.1.frames 2 = some ⟨⟨2, 1, .lockAndProcess 30⟩, ⟨3⟩,
      .done (.unwound .queuePoisoned)⟩ := by decide
  refine ⟨hframe, ?_⟩
  exact panic_reported hrun (Run.passesPanic rfl (by decide))
    (i := 0) (v := 30) (by decide) (by decide) hframe rfl

/-- Call 1 returns `ProcessingPanicked`, and call 2 goes to its end. -/
def droppedRun : List (Action Unit Nat Nat Nat) :=
  panickedRun ++ [.step 1, .step 1, .step 1, .step 1, .step 1, .step 1, .step 1,
    .step 2, .step 2, .step 2, .step 2, .step 2, .step 2, .step 2]

/-- With both options off, call 2 returns `ProcessedElsewhere` in
`droppedRun`. -/
theorem panic_dropped :
    ¬ ∀ (acts : List (Action Unit Nat Nat Nat)) (log : List (Event Nat Nat))
      (s : State Unit Nat Nat Nat),
      Run ⟨⟨false, false⟩, true⟩ 0 (fun _ => ()) acts log s →
        ∀ i o v f outcome, .pop i o v ∈ log → .callbackUnwind i ∈ log →
          s.frames o = some f → f.pc = .done outcome →
            outcome = .returned .processingPanicked ∨
              ∃ p, outcome = .unwound p := by
  intro hall
  have hrun : Run ⟨⟨false, false⟩, true⟩ 0 (fun _ => ()) droppedRun _ _ :=
    Run.of_run (by decide)
  have hresult := hall _ _ _ hrun 0 2 30 ⟨⟨2, 1, .lockAndProcess 30⟩, ⟨1⟩,
    .done (.returned .processedElsewhere)⟩ _ (by decide) (by decide)
    (by decide) rfl
  rcases hresult with heq | ⟨p, heq⟩ <;> cases heq

end ContentionQueue
