import ContentionQueue.Service

/-!
# One callback after the other

A callback takes its own value and then pops values from the queue.

* `portions_in_order` says that the callbacks take the values in batches: the
  values in the order of arrival are cut into one portion for each call that
  has acquired front permission, and the portions stand in the order of the
  acquisitions.
* `front_state_serial` says the same of the writes of `front_state`: the writes
  of one callback are never among the writes of another.
-/

namespace ContentionQueue

open Machines State HandOff

variable {M FS V R : Type} {cfg : Config} {s s' : State M FS V R}
  {a : Action M FS V R} {evs log : List (Event V R)}
  {acts : List (Action M FS V R)} {frontState : FS} {data : Addr → M}

/-! ## Portions -/

/-- The values that call `i` consumed or dropped. -/
def portion (log : List (Event V R)) (i : CallId) : List (CallId × V) :=
  Line.portion (drops log) (takings log) i

/-- The portions of the calls, in the order in which they acquired front
permission, are the values in the order of arrival, up to the values that still
wait.  A portion is empty, or it starts with the value of its own call. -/
theorem portions_in_order (h : Run cfg frontState data acts log s) :
    (acquisitions log).flatMap (portion log) <+: arrivals log ∧
      (∀ i, portion log i = [] ∨
        ∃ v merged, portion log i = (i, v) :: merged) ∧
      ((∀ i f, s.frames i = some f → f.pc.isLive = false) →
        (acquisitions log).flatMap (portion log) = arrivals log) := by
  obtain ⟨l, hsteps, hR⟩ := h.refines
  have hl := Line.portioned hsteps
  have hportion : portion log = Line.portion l.dropped l.taken := by
    funext i
    rw [portion, hR.history.dropped, hR.history.taken]
  have hsplit := hl.split
  rw [← hR.history.arrivals, ← hR.history.acquired, ← hportion] at hsplit
  refine ⟨⟨_, hsplit.symm⟩, hportion ▸ hl.headed, fun hdone => ?_⟩
  rw [hR.waiting_eq_nil hdone, List.append_nil] at hsplit
  exact hsplit.symm

/-- Call 0 takes its own value and the value of call 1, and the value of call 2
still waits. -/
theorem portions_in_order_handOver :
    let r := (run ⟨.default, false⟩ 0 (fun _ => ())
      handOverRun).get (by decide)
    (acquisitions r.2).flatMap (portion r.2) <+: arrivals r.2 ∧
      (∀ i, portion r.2 i = [] ∨
        ∃ v merged, portion r.2 i = (i, v) :: merged) ∧
      ((∀ i f, r.1.frames i = some f → f.pc.isLive = false) →
        (acquisitions r.2).flatMap (portion r.2) = arrivals r.2) :=
  portions_in_order (Run.of_run (by decide))

/-! ## Writes of the front state -/

/-- The call whose callback writes `front_state`, and what it writes. -/
def Action.write? : Action M FS V R → Option (CallId × FS)
  | .callback i (.frontState frontState) => some (i, frontState)
  | _ => none

/-- The writes of `front_state`, in order. -/
def writes (acts : List (Action M FS V R)) : List (CallId × FS) :=
  acts.filterMap Action.write?

/-- The turn of a call: its place among the calls that have acquired front
permission. -/
def turn (log : List (Event V R)) (i : CallId) : Nat :=
  (acquisitions log).idxOf i

section Writes

theorem writes_snoc (acts : List (Action M FS V R)) (a : Action M FS V R) :
    writes (acts ++ [a]) = writes acts ++ a.write?.toList := by
  rw [writes, List.filterMap_append]
  cases h : a.write? <;> simp [writes, h]

/-- A call keeps its turn. -/
theorem turn_append {i : CallId} (h : i ∈ acquisitions log)
    (evs : List (Event V R)) : turn (log ++ evs) i = turn log i := by
  rw [turn, acquisitions, List.filterMap_append]
  exact List.idxOf_append_of_mem h

/-- What a step does to `front_state`. -/
theorem Transition.frontState_eq (ht : Transition cfg s a s' evs)
    (hb : Basics s) : s'.frontExclusive.frontState =
      (a.write?.map Prod.snd).getD s.frontExclusive.frontState := by
  cases ht
  case uninit hat hslot => exact (hb.slots.not_uninit hat hslot).elim
  case handOff => simp [Action.write?]
  case errHandOff => simp [Action.write?]
  all_goals rfl

/-- A call that writes has the last turn. -/
theorem Run.turn_of_write (h : Run cfg frontState data acts log s)
    (ht : Transition cfg s a s' evs) {w : CallId × FS}
    (hw : a.write? = some w) : evs = [] ∧ w.1 ∈ acquisitions log ∧
      ∀ i ∈ acquisitions log, turn log i ≤ turn log w.1 := by
  obtain ⟨i, x, rfl, rfl⟩ : ∃ i x, a = .callback i (.frontState x) ∧
      w = (i, x) := by
    cases a with
    | callback i op =>
        cases op <;> cases hw
        exact ⟨i, _, rfl, rfl⟩
    | _ => cases hw
  -- the callback runs, also in the closure of `unlocked`
  obtain ⟨rfl, hspan⟩ : evs = [] ∧ s.InSpan i := by
    cases ht with
    | uninit hat hslot => exact (h.basics.slots.not_uninit hat hslot).elim
    | frontState hin => exact ⟨rfl, hin.loc.inSpan rfl⟩
    | frontUnlocked hat => exact ⟨rfl, hat.inSpan rfl⟩
  obtain ⟨l, -, hR⟩ := h.refines
  have hacq := h.acquisitions_of_served hspan.served
  have hnodup := l.nodup_acquired
  rw [← hR.history.acquired, hacq] at hnodup
  have hnew : i ∉ departures log := fun hi =>
    (List.nodup_append.mp hnodup).2.2 i hi i (by simp) rfl
  refine ⟨rfl, by simp [hacq], fun j hj => ?_⟩
  have hlt := List.idxOf_lt_length_of_mem hj
  unfold turn
  rw [hacq] at hlt ⊢
  rw [List.idxOf_append_of_notMem hnew]
  simp only [List.length_append, List.length_singleton,
    List.idxOf_cons_self] at hlt ⊢
  omega

end Writes

/-- The writes of `front_state` stand in the order in which their calls have
acquired front permission, so the writes of one callback are never among the
writes of another.  The front state is the last of them. -/
theorem front_state_serial (h : Run cfg frontState data acts log s) :
    (∀ w ∈ writes acts, w.1 ∈ acquisitions log) ∧
      ((writes acts).map fun w => turn log w.1).Pairwise (· ≤ ·) ∧
      s.frontExclusive.frontState =
        ((writes acts).getLast?.map Prod.snd).getD frontState := by
  induction h with
  | nil => simp [writes, State.new]
  | @snoc acts log s a evs s' run hmatched hstep ih =>
      obtain ⟨hmem, hturns, hlast⟩ := ih
      have ht := transition_of_step hstep
      have hkeep : ((writes acts).map fun w => turn (log ++ evs) w.1) =
          (writes acts).map fun w => turn log w.1 :=
        List.map_congr_left fun w hw => turn_append (hmem w hw) evs
      have hmem' : ∀ w ∈ writes acts, w.1 ∈ acquisitions (log ++ evs) := by
        intro w hw
        rw [acquisitions, List.filterMap_append]
        exact List.mem_append_left _ (hmem w hw)
      rw [writes_snoc, ht.frontState_eq (Run.basics run), hlast]
      cases hw : a.write? with
      | none =>
          rw [Option.toList_none, List.append_nil, hkeep]
          exact ⟨hmem', hturns, rfl⟩
      | some w =>
          obtain ⟨rfl, hself, hle⟩ := Run.turn_of_write run ht hw
          rw [List.append_nil] at hkeep hmem' ⊢
          rw [Option.toList_some]
          refine ⟨List.forall_mem_append.mpr ⟨hmem', by simpa using hself⟩,
            ?_, by simp⟩
          rw [List.map_append, List.pairwise_append]
          refine ⟨hturns, by simp, fun m hm n hn => ?_⟩
          obtain ⟨w', hw', rfl⟩ := List.mem_map.mp hm
          obtain rfl : n = turn log w.1 := by simpa using hn
          exact hle _ (hmem w' hw')

/-- The callback of call 0 writes in the closure of `unlocked`, while call 1
arrives, and once more after it.  Then the callback of call 1 writes. -/
def writingRun : List (Action Unit Nat Nat Nat) :=
  [.call 0 ⟨0, 1, .lockAndProcess 10⟩, .step 0, .step 0, .step 0, .step 0,
    .callback 0 .unlocked,
    .call 1 ⟨1, 1, .lockAndProcess 20⟩, .step 1, .step 1, .step 1, .step 1,
    .callback 0 (.frontState 7), .step 1,
    .callback 0 .endUnlocked, .step 0,
    .callback 0 (.frontState 8), .callback 0 (.ret 5), .step 0, .step 0,
    .step 1, .step 1, .step 1, .step 1, .step 1, .callback 1 (.frontState 9)]

theorem front_state_serial_writing :
    let r := (run ⟨.default, false⟩ 0 (fun _ => ())
      writingRun).get (by decide)
    (∀ w ∈ writes writingRun, w.1 ∈ acquisitions r.2) ∧
      ((writes writingRun).map fun w => turn r.2 w.1).Pairwise (· ≤ ·) ∧
      r.1.frontExclusive.frontState =
        ((writes writingRun).getLast?.map Prod.snd).getD 0 :=
  front_state_serial (Run.of_run (by decide))

end ContentionQueue
