import ContentionQueue.Transition

/-!
# Overlays

An overlay changes parts of a state that a block of the code does not look at:
the contents of `mutex_exclusive`, the mutexes, and the local variables of the
calls.  When a step commutes with an overlay, the step neither reads nor writes
what the overlay changes.

`State.overlay` is the overlay, and the lemmas move it through the updates that
the transition function is made of.
-/

namespace ContentionQueue

open Machines

variable {M FS V R : Type} {s : State M FS V R}

/-- What to put in place of the parts of a state.  Calls keep their arguments,
and user code stays user code. -/
structure Overlay (M V R : Type) where
  exclusive : MutexExclusive V → MutexExclusive V
  mutex : Addr → Mutex M → Mutex M
  frame : CallId → Frame V R → Frame V R
  call_frame : ∀ i f, (frame i f).call = f.call
  isUserCode_frame : ∀ i f, (frame i f).pc.isUserCode = f.pc.isUserCode

namespace State

/-- The state under an overlay. -/
@[simps -fullyApplied]
def overlay (s : State M FS V R) (o : Overlay M V R) : State M FS V R :=
  { s with
    mutexExclusive := o.exclusive s.mutexExclusive
    mutexes := fun a => o.mutex a (s.mutexes a)
    frames := fun i => (s.frames i).map (o.frame i) }

section Overlay

variable (o : Overlay M V R)

theorem overlay_frame {i : CallId} {f : Frame V R} (hf : s.frames i = some f) :
    (s.overlay o).frames i = some (o.frame i f) := by
  simp [hf]

theorem overlay_update (s : State M FS V R) (i : CallId) (f : Frame V R) :
    (fun j => (Function.update s.frames i (some f) j).map (o.frame j)) =
      Function.update (fun j => (s.frames j).map (o.frame j)) i
        (some (o.frame i f)) := by
  funext j
  rcases eq_or_ne j i with rfl | hj
  · simp
  · simp [hj]

@[simp] theorem overlay_setFrame (s : State M FS V R) (i : CallId)
    (f : Frame V R) :
    (s.setFrame i f).overlay o = (s.overlay o).setFrame i (o.frame i f) := by
  simp only [overlay, setFrame, overlay_update]

@[simp] theorem overlay_setMutex (s : State M FS V R) (a : Addr)
    (m : Mutex M) :
    (s.setMutex a m).overlay o = (s.overlay o).setMutex a (o.mutex a m) := by
  simp only [overlay, setMutex, State.mk.injEq, true_and, and_true]
  funext b
  rcases eq_or_ne b a with rfl | hb
  · simp
  · simp [hb]

@[simp] theorem overlay_setExclusive (s : State M FS V R)
    (x : MutexExclusive V) :
    (s.setExclusive x).overlay o =
      (s.overlay o).setExclusive (o.exclusive x) := rfl

@[simp] theorem overlay_setMutexAddress (s : State M FS V R) (address : Nat) :
    (s.setMutexAddress address).overlay o =
      (s.overlay o).setMutexAddress address := rfl

@[simp] theorem overlay_setFrontState (s : State M FS V R) (frontState : FS) :
    (s.setFrontState frontState).overlay o =
      (s.overlay o).setFrontState frontState := rfl

/-- A call goes on under the overlay, when the overlay keeps its program
counter. -/
theorem overlay_goto (s : State M FS V R) (i : CallId) (f : Frame V R)
    {pc pc' : Pc V R}
    (hpc : o.frame i { f with pc := pc } = { o.frame i f with pc := pc' }) :
    (s.goto i f pc).overlay o =
      (s.overlay o).goto i (o.frame i f) pc' := by
  simp only [overlay, goto, overlay_update, hpc]

/-- A call ends under the overlay. -/
theorem overlay_finish (s : State M FS V R) (i : CallId) (f : Frame V R)
    {outcome outcome' : Outcome R}
    (hpc : o.frame i { f with pc := .done outcome } =
      { o.frame i f with pc := .done outcome' }) :
    (s.finish i f outcome).overlay o =
      (s.overlay o).finish i (o.frame i f) outcome' := by
  simp only [overlay, finish, overlay_update, hpc, o.call_frame]

/-- A call starts under the overlay. -/
theorem overlay_pushFrame (s : State M FS V R) (i : CallId) (f : Frame V R) :
    (s.pushFrame i f).overlay o =
      (s.overlay o).pushFrame i (o.frame i f) := by
  simp only [overlay, pushFrame, overlay_update, o.call_frame]

@[simp] theorem overlay_running (s : State M FS V R) (i : CallId)
    (f : Frame V R) :
    (s.overlay o).running i (o.frame i f) = s.running i f := by
  simp [running, o.call_frame]

@[simp] theorem overlay_inUserCode (s : State M FS V R) (t : ThreadId) :
    (s.overlay o).inUserCode t = s.inUserCode t := by
  unfold inUserCode
  rw [overlay_threads]
  split
  · rfl
  · rename_i i _ _
    cases hf : s.frames i with
    | none => simp [hf]
    | some f => simp [hf, o.isUserCode_frame]

end Overlay

end State

end ContentionQueue
