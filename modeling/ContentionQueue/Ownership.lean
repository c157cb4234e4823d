import ContentionQueue.Guards

/-!
# The thread that owns a mutex

A thread owns a mutex when the guard of the mutex is in its hands: in its user
code, in one of its calls, or in a slot that one of its unwinds left behind.

`Transition.owns` says that a thread comes to own a mutex by an action of its
own only.  `State.At.not_mayGain` says when a thread has no such action but the
next block of its innermost call.  `Run.unowned` follows: a call that has
given its guard back and is going to lock the mutex again runs on a thread
that does not own the mutex, unless the callback of the call has unwound.
-/

namespace ContentionQueue

open Machines State

variable {M FS V R : Type} {cfg : Config} {s s' : State M FS V R}
  {a : Action M FS V R} {evs log : List (Event V R)}

/-- The thread of a call. -/
def State.threadOf (s : State M FS V R) (i : CallId) : Option ThreadId :=
  (s.frames i).map fun f => f.call.thread

/-- The thread that a place belongs to. -/
def State.ownerOf (s : State M FS V R) : Place → Option ThreadId
  | .user t => some t
  | .call i => s.threadOf i
  | .leaked i => s.threadOf i

/-- Thread `t` owns the mutex at `b`. -/
def State.Owns (s : State M FS V R) (t : ThreadId) (b : Addr) : Prop :=
  (s.guardAt b).bind s.ownerOf = some t

instance (s : State M FS V R) (t : ThreadId) (b : Addr) :
    Decidable (s.Owns t b) :=
  inferInstanceAs (Decidable (_ = some t))

/-- The action `a` is taken by thread `t` and may give it a guard. -/
def State.MayGain (s : State M FS V R) (t : ThreadId) :
    Action M FS V R → Prop
  | .call _ c => c.thread = t ∧ s.inUserCode t = true
  | .step i => ∃ f, s.frames i = some f ∧ s.running i f = true ∧
      f.call.thread = t
  | .callback i .unwind => ∃ f, s.frames i = some f ∧
      s.running i f = true ∧ f.call.thread = t
  | .lock t' _ => t' = t ∧ s.inUserCode t = true
  | _ => False

/-! ## Calls keep their arguments -/

theorem Transition.call_of_self (ht : Transition cfg s a s' evs)
    {i : CallId} {f : Frame V R} (hi : a.call? = some i)
    (hf : s.frames i = some f) :
    ∃ f', s'.frames i = some f' ∧ f'.call = f.call := by
  have hsame : ∀ {f₀ f' : Frame V R}, s.frames i = some f₀ →
      f'.call = f₀.call → f'.call = f.call := by
    intro f₀ f' hf₀ hcall
    rw [hf, Option.some.injEq] at hf₀
    rw [hcall, hf₀]
  have hwake : ∀ {s₁ : State M FS V R} {f₀ : Frame V R}
      (wake : TaskState → TaskState), s₁.frames i = some f₀ →
        f₀.call = f.call →
          ∃ f', (s₁.wakeNext wake).frames i = some f' ∧ f'.call = f.call := by
    intro s₁ f₀ wake hf₀ hcall
    rcases wakeNext_frames s₁ wake i with h | h
    · exact ⟨f₀, h.trans hf₀, hcall⟩
    · exact ⟨f₀.wake wake, by rw [h, hf₀]; rfl, hcall⟩
  cases ht <;> cases hi
  case callProcess hnew =>
    rw [hnew] at hf
    cases hf
  case callOther hnew =>
    rw [hnew] at hf
    cases hf
  case spuriousWake hframe =>
    exact ⟨_, Function.update_self _ _ _, hsame hframe rfl⟩
  case handOff hat =>
    exact hwake _ (Function.update_self _ _ _) (hsame hat.frame rfl)
  case errHandOff hat =>
    exact hwake _ (Function.update_self _ _ _) (hsame hat.frame rfl)
  all_goals
    first
    | exact ⟨f, hf, rfl⟩
    | (rename_i hat
       exact ⟨_, Function.update_self _ _ _, hsame hat.frame rfl⟩)
    | (rename_i hin
       exact ⟨_, Function.update_self _ _ _, hsame hin.loc.frame rfl⟩)

/-- A call keeps its thread and its arguments. -/
theorem Transition.call_of_frame (ht : Transition cfg s a s' evs)
    {i : CallId} {f : Frame V R} (hf : s.frames i = some f) :
    ∃ f', s'.frames i = some f' ∧ f'.call = f.call := by
  by_cases hi : a.call? = some i
  · exact ht.call_of_self hi hf
  · rcases ht.other hi with hother | ⟨wake, hwoken⟩
    · exact ⟨f, hother.trans hf, rfl⟩
    · exact ⟨f.wake wake, by rw [hwoken, hf]; rfl, rfl⟩

theorem Transition.threadOf (ht : Transition cfg s a s' evs) {i : CallId}
    {t : ThreadId} (h : s.threadOf i = some t) : s'.threadOf i = some t := by
  obtain ⟨f, hf, rfl⟩ := Option.map_eq_some_iff.mp h
  obtain ⟨f', hf', hcall⟩ := ht.call_of_frame hf
  rw [State.threadOf, hf', Option.map_some, hcall]

/-! ## Guards move in the hands of the acting thread -/

theorem State.At.mayGain {i : CallId} {f : Frame V R} {pc : Pc V R}
    (hat : s.At i f pc) : s.MayGain f.call.thread (.step i : Action M FS V R) :=
  ⟨f, hat.frame, hat.running, rfl⟩

/-- What an action can do to the guard of a mutex: nothing, drop it, or put it
into the hands of the thread that acts.  It leaks the guard only when a
callback unwinds. -/
def State.GuardMoves (s : State M FS V R) (a : Action M FS V R)
    (s' : State M FS V R) (evs : List (Event V R)) (b : Addr) : Prop :=
  s'.guardAt b = s.guardAt b ∨ s'.guardAt b = none ∨
    ∃ p t, s'.guardAt b = some p ∧ s'.ownerOf p = some t ∧ s.MayGain t a ∧
      ∀ i, p = .leaked i → .callbackUnwind i ∈ evs

theorem guardMoves_drop {b : Addr} (c : Addr)
    (h : s'.guardAt = Function.update s.guardAt c none) :
    s.GuardMoves a s' evs b := by
  unfold State.GuardMoves
  rw [h]
  rcases eq_or_ne b c with rfl | hb
  · exact Or.inr (Or.inl (Function.update_self _ _ _))
  · exact Or.inl (Function.update_of_ne hb _ _)

theorem guardMoves_hand {b : Addr} (c : Addr) (p : Place) {t : ThreadId}
    (h : s'.guardAt = Function.update s.guardAt c (some p))
    (hown : s'.ownerOf p = some t) (hgain : s.MayGain t a)
    (hleak : ∀ i, p = .leaked i → .callbackUnwind i ∈ evs) :
    s.GuardMoves a s' evs b := by
  unfold State.GuardMoves
  rw [h]
  rcases eq_or_ne b c with rfl | hb
  · exact Or.inr (Or.inr ⟨p, t, Function.update_self _ _ _, hown, hgain,
      hleak⟩)
  · exact Or.inl (Function.update_of_ne hb _ _)

theorem Transition.guardMoves (ht : Transition cfg s a s' evs) (b : Addr) :
    s.GuardMoves a s' evs b := by
  have hthread : ∀ {i f}, s.frames i = some f →
      s'.threadOf i = some f.call.thread :=
    fun hf => ht.threadOf (by rw [State.threadOf, hf, Option.map_some])
  have hlock : ∀ {i f pc} c, s.At i f pc → a = .step i →
      s'.guardAt = Function.update s.guardAt c (some (.call i)) →
        s.GuardMoves a s' evs b := by
    rintro i f pc c hat rfl hs'
    exact guardMoves_hand c (.call i) hs' (hthread hat.frame) hat.mayGain
      (by simp)
  cases ht
  -- user code gives a guard to a call, or locks a mutex
  case callProcess i thread mutex guard value hnew huser hguard =>
    exact guardMoves_hand guard (.call i) (by simp)
      (by simp [ownerOf, State.threadOf]) ⟨rfl, huser⟩ (by simp)
  case userLock t c huser hfree =>
    exact guardMoves_hand c (.user t) (by simp) rfl ⟨rfl, huser⟩ (by simp)
  -- a call locks its mutex
  case lock f _ hat _ _ => exact hlock f.call.mutex hat rfl (by simp)
  case relock g hat _ => exact hlock g hat rfl (by simp)
  case reLock f _ hat _ => exact hlock f.call.mutex hat rfl (by simp)
  case errLock f _ hat _ => exact hlock f.call.mutex hat rfl (by simp)
  case queryLock f hat _ => exact hlock f.call.mutex hat rfl (by simp)
  -- a call gives its guard away
  case returnProcess i f g result guard value hat _ =>
    exact guardMoves_hand g (.user f.call.thread) (by simp) rfl hat.mayGain
      (by simp)
  case unwind i f hd g hin =>
    exact guardMoves_hand g (.leaked i) (by simp) (hthread hin.loc.frame)
      ⟨f, hin.loc.frame, hin.loc.running, rfl⟩ (by simp)
  -- a guard is dropped
  case lockPoisoned f _ _ _ _ _ =>
    exact guardMoves_drop f.call.mutex (by simp)
  case wait g hat => exact guardMoves_drop g (by simp)
  case mutexMismatch g _ _ _ => exact guardMoves_drop g (by simp)
  case queuePoisoned g _ _ _ _ => exact guardMoves_drop g (by simp)
  case mutexPoisoned g _ _ _ _ => exact guardMoves_drop g (by simp)
  case returnOther g _ _ _ => exact guardMoves_drop g (by simp)
  case resumeUnwind g _ _ => exact guardMoves_drop g (by simp)
  case queryReturn g _ _ => exact guardMoves_drop g (by simp)
  case unlocked g _ => exact guardMoves_drop g (by simp)
  case userUnlock c _ _ => exact guardMoves_drop c (by simp)
  case releaseLeaked c _ _ _ => exact guardMoves_drop c (by simp)
  all_goals exact Or.inl (by simp)

/-- A call that has no frame yet is started by its thread. -/
theorem Transition.mayGain_of_new (ht : Transition cfg s a s' evs) {i : CallId}
    {t : ThreadId} (hnew : s.frames i = none)
    (h : s'.threadOf i = some t) : s.MayGain t a := by
  obtain ⟨⟨c, taskState, pc⟩, hf, rfl⟩ := Option.map_eq_some_iff.mp h
  have hcall : a = .call i c := ht.eq_call hnew hf
  cases ht <;> cases hcall
  case callProcess huser _ _ => exact ⟨rfl, huser⟩
  case callOther huser _ => exact ⟨rfl, huser⟩

theorem Transition.threadOf_eq (ht : Transition cfg s a s' evs) {i : CallId}
    {t : ThreadId} (h : s'.threadOf i = some t) :
    s.threadOf i = some t ∨ s.MayGain t a := by
  cases hframe : s.frames i with
  | none => exact Or.inr (ht.mayGain_of_new hframe h)
  | some f =>
      have hkeep : s.threadOf i = some f.call.thread := by
        rw [State.threadOf, hframe, Option.map_some]
      rw [ht.threadOf hkeep] at h
      exact Or.inl (hkeep.trans h)

/-- A thread comes to own a mutex by an action of its own. -/
theorem Transition.owns (ht : Transition cfg s a s' evs) {t : ThreadId}
    {b : Addr} (h : s'.Owns t b) : s.Owns t b ∨ s.MayGain t a := by
  rcases ht.guardMoves b with hsame | hnone | ⟨p, t', hp, hown, hgain, -⟩
  · unfold State.Owns at h ⊢
    rw [hsame] at h
    cases hg : s.guardAt b with
    | none => simp [hg] at h
    | some p =>
        rw [hg, Option.bind_some] at h
        rw [Option.bind_some]
        cases p with
        | user t' => exact Or.inl h
        | call i => exact ht.threadOf_eq h
        | leaked i => exact ht.threadOf_eq h
  · simp [State.Owns, hnone] at h
  · obtain rfl : t' = t := by simpa [State.Owns, hp, hown] using h
    exact Or.inr hgain

/-- A guard is leaked when a callback unwinds. -/
theorem Transition.leaked (ht : Transition cfg s a s' evs) {b : Addr}
    {i : CallId} (h : s'.guardAt b = some (.leaked i)) :
    s.guardAt b = some (.leaked i) ∨ .callbackUnwind i ∈ evs := by
  rcases ht.guardMoves b with hsame | hnone | ⟨p, t, hp, -, -, hleak⟩
  · exact Or.inl (hsame ▸ h)
  · rw [hnone] at h
    cases h
  · rw [hp, Option.some.injEq] at h
    exact Or.inr (hleak i h)

/-- While the innermost call of a thread is not in user code, that call is all
that acts on the thread. -/
theorem State.At.not_mayGain {i : CallId} {f : Frame V R} {pc : Pc V R}
    (hat : s.At i f pc) (huser : pc.isUserCode = false)
    (hi : a.call? ≠ some i) : ¬ s.MayGain f.call.thread a := by
  have hout : s.inUserCode f.call.thread = false := by
    obtain ⟨rest, hstack⟩ := List.head?_eq_some_iff.mp hat.top
    simp [inUserCode, hstack, hat.frame, hat.pc, huser]
  have htop : ∀ {j f'}, s.running j f' = true →
      f'.call.thread = f.call.thread → j = i := by
    intro j f' hrun hthread
    have hj : (s.threads f'.call.thread).head? = some j := by
      simpa [State.running] using hrun
    rw [hthread, hat.top, Option.some.injEq] at hj
    exact hj.symm
  intro hgain
  cases a with
  | call j c =>
      obtain ⟨-, huser'⟩ := hgain
      simp [hout] at huser'
  | step j =>
      obtain ⟨f', -, hrun, hthread⟩ := hgain
      exact hi (congrArg some (htop hrun hthread))
  | callback j op =>
      cases op with
      | unwind =>
          obtain ⟨f', -, hrun, hthread⟩ := hgain
          exact hi (congrArg some (htop hrun hthread))
      | _ => exact hgain
  | lock t b =>
      obtain ⟨-, huser'⟩ := hgain
      simp [hout] at huser'
  | unlock t b => exact hgain
  | spuriousWake j => exact hgain
  | poison b => exact hgain
  | clearPoison b => exact hgain
  | releaseLeaked b => exact hgain

/-! ## Between two guards -/

/-- Whether a call has given its guard back and is going to lock the mutex
again, without user code in between. -/
def Pc.isRelocking : Pc V R → Bool
  | .asleep _ => true
  | .relock _ => true
  | .errLock _ => true
  | _ => false

/-- A call that is going to lock its mutex again does not run on a thread that
owns it, unless the callback of the call unwound. -/
def State.Unowned (log : List (Event V R)) (s : State M FS V R) : Prop :=
  ∀ i f, s.frames i = some f → f.pc.isRelocking = true →
    .callbackUnwind i ∉ log → ¬ s.Owns f.call.thread f.call.mutex

theorem not_owns_of_free {t : ThreadId} {b : Addr} (h : s.guardAt b = none) :
    ¬ s.Owns t b := by
  simp [State.Owns, h]

theorem isRelocking_entry (m : Method V) :
    (m.entry : Pc V R).isRelocking = false := by
  cases m <;> rfl

@[simp] theorem isRelocking_notifyOne (pc : Pc V R) :
    pc.notifyOne.isRelocking = pc.isRelocking := by
  cases pc <;> rfl

theorem isRelocking_live {pc : Pc V R} (h : pc.isRelocking = true) :
    pc.isLive = true ∧ pc.isUserCode = false := by
  cases pc <;> first | (cases h; done) | exact ⟨rfl, rfl⟩

/-- A call gives its guard back when it goes to sleep and when one of its
assertions fails, and it drops the guard then. -/
theorem Transition.reach_relocking (ht : Transition cfg s a s' evs)
    (hb : Basics s) (h : s.Unowned log) {i : CallId} {f : Frame V R}
    (hi : a.call? = some i) (hf : s'.frames i = some f)
    (hpc : f.pc.isRelocking = true) (hlog : .callbackUnwind i ∉ log ++ evs) :
    ¬ s'.Owns f.call.thread f.call.mutex := by
  have howns := fun t b => ht.owns (t := t) (b := b)
  cases ht <;> cases hi
  case wait hat =>
    obtain rfl := frame_of_update hf
    exact not_owns_of_free (by simp [← (hb.locals.at hat).1])
  case queuePoisoned hat =>
    obtain rfl := frame_of_update hf
    exact not_owns_of_free (by simp [← (hb.locals.at hat).1])
  case mutexPoisoned hat =>
    obtain rfl := frame_of_update hf
    exact not_owns_of_free (by simp [← (hb.locals.at hat).1])
  case unwind => exact absurd (by simp) hlog
  case spuriousWake hasleep hframe =>
    obtain rfl := frame_of_update hf
    intro hown
    refine h i _ hframe (by rw [hasleep]; rfl) (by simpa using hlog) ?_
    exact (howns _ _ hown).resolve_right id
  case callOther =>
    obtain rfl := frame_of_update hf
    cases (isRelocking_entry _).symm.trans hpc
  case handOff =>
    rw [pc_of_handOff hf rfl] at hpc
    cases hpc
  case errHandOff =>
    rw [pc_of_handOff hf rfl] at hpc
    cases hpc
  all_goals
    first
    | (obtain rfl := frame_of_update hf; cases hpc)
    | (rename_i hin
       rw [hin.pc_eq hf] at hpc
       cases hpc)

theorem Transition.unowned (ht : Transition cfg s a s' evs)
    (hb : Basics s) (h : s.Unowned log) : s'.Unowned (log ++ evs) := by
  intro i f hf hpc hlog
  by_cases hi : a.call? = some i
  · exact ht.reach_relocking hb h hi hf hpc hlog
  -- the call was there before, and nothing else acts on its thread
  obtain ⟨f₀, hf₀, hcall, hpc₀⟩ := ht.pc_before hi hf
    (q := fun pc => pc.isRelocking = true) (by simp) hpc
  obtain ⟨hlive, huser⟩ := isRelocking_live hpc₀
  have hat := hb.nested.at hf₀ hlive huser
  simp only [List.mem_append, not_or] at hlog
  rw [hcall]
  intro hown
  rcases ht.owns hown with hbefore | hgain
  · exact h i f₀ hf₀ hpc₀ hlog.1 hbefore
  · exact hat.not_mayGain huser hi hgain

theorem Run.unowned {frontState : FS} {data : Addr → M}
    {acts : List (Action M FS V R)}
    (h : Run cfg frontState data acts log s) : s.Unowned log := by
  induction h with
  | nil => simp [Unowned, State.new]
  | snoc run _ hstep ih =>
      exact (transition_of_step hstep).unowned (Run.basics run) ih

/-- Only a call whose callback unwound leaks a guard. -/
theorem Run.leaked {frontState : FS} {data : Addr → M}
    {acts : List (Action M FS V R)}
    (h : Run cfg frontState data acts log s) {b : Addr} {i : CallId}
    (hleak : s.guardAt b = some (.leaked i)) : .callbackUnwind i ∈ log := by
  refine Machine.Exec.invariant (I := fun log s =>
    ∀ b i, s.guardAt b = some (.leaked i) → .callbackUnwind i ∈ log)
    (by simp [guardAt, State.new]) ?_ h b i hleak
  intro log s a s' evs hI _ hstep b i hleak
  rw [List.mem_append]
  exact ((transition_of_step hstep).leaked hleak).imp_left (hI b i)

end ContentionQueue
