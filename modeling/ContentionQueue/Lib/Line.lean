import Mathlib.Data.List.Nodup
import Mathlib.Data.Set.Card
import Mathlib.Logic.Function.Basic

/-!
# A line that hands one permission on

People arrive with a value each and stand in a line for one permission, the
baton.  Whoever has the baton may be served, and while it is served it may
take the values of the people behind it in line order.  It then passes the
baton to the head of the line, with a flag that says whether it failed, or
puts it down when nobody is left.

`Line` is the state of such a line.  The baton is one value, so it is in one
place only, and the line is two lists, so the people whose value has been
taken stand in front of the others.  The other fields record the history: who
arrived, who got the baton, which values were taken by whom, and which were
dropped.  The proof fields are the invariants of the line, and each operation
proves them for the line it builds.  A line that breaks them cannot be
written down.

There are five groups.

* The state.  `Stage` is what one person can see of the line, and
  `Line.stage` reads it off.
* The operations, with the stage of every person after each of them.
* The place of the baton.  `Line.one_place` counts the people that have it
  and the people that have been told that it is theirs.
* The accounting.  `Line.Step` is the union of the operations, and the last
  lemmas say what the order and the accounting of a line give.
* The portions.  `Line.portioned` cuts the arrivals into one portion for each
  person that has got the baton.
-/

namespace HandOff

/-- Where the permission is. -/
inductive Baton (ι α : Type) where
  /-- Nobody has it and nobody waits for it. -/
  | free
  /-- It was passed to the head of the line, which has not seen it yet. -/
  | signalled (failed : Bool)
  /-- The head of the line has seen it and still stands in the line. -/
  | called (failed : Bool)
  /-- `i` has it, outside the line.  `value` is the value of `i`, as long as
  nobody has taken it. -/
  | front (i : ι) (value : Option α)
  /-- `i` has it and is served. -/
  | serving (i : ι)

/-- `taker` took the value of `owner`. -/
structure Taking (ι α : Type) where
  taker : ι
  owner : ι
  value : α

/-- A taken value with its owner. -/
def Taking.item {ι α : Type} (r : Taking ι α) : ι × α := (r.owner, r.value)

/-- What one person sees of the line. -/
inductive Stage (α : Type) where
  | outside
  | waiting (signal : Option Bool)
  | called (failed : Bool)
  | front (value : Option α)
  | serving

variable {ι α : Type}

/-- Whether a person has the baton and knows it. -/
def Stage.holds : Stage α → Bool
  | .called _ => true
  | .front _ => true
  | .serving => true
  | _ => false

/-- Whether a person has been told that it has the baton and does not know it
yet. -/
def Stage.isTold : Stage α → Bool
  | .waiting (some _) => true
  | _ => false

/-- The value that waits with the baton, if there is one. -/
def Baton.own : Baton ι α → List (ι × α)
  | .front i (some v) => [(i, v)]
  | _ => []

/-- The person that has the baton outside the line. -/
def Baton.person : Baton ι α → Option ι
  | .front i _ => some i
  | .serving i => some i
  | _ => none

/-- What the person with the baton sees. -/
def Baton.stage : Baton ι α → Stage α
  | .free => .outside
  | .signalled failed => .waiting (some failed)
  | .called failed => .called failed
  | .front _ v => .front v
  | .serving _ => .serving

/-- The person that the baton belongs to, when `ids` stand in the line. -/
def Baton.holder (ids : List ι) : Baton ι α → Option ι
  | .free => none
  | .signalled _ => ids.head?
  | .called _ => ids.head?
  | .front i _ => some i
  | .serving i => some i

/-- What `i` sees of a baton and of the people in the line. -/
def Baton.stageIn [DecidableEq ι] (b : Baton ι α) (ids : List ι) (i : ι) :
    Stage α :=
  if b.holder ids = some i then b.stage
  else if i ∈ ids then .waiting none
  else .outside

/-- A line with its history and its invariants. -/
structure Line (ι α : Type) where
  baton : Baton ι α
  /-- The people in the line whose value has been taken. -/
  merged : List ι
  /-- The people behind them, whose value has not been taken. -/
  pending : List (ι × α)
  /-- Everybody that has arrived, in order. -/
  arrivals : List (ι × α)
  /-- Everybody that has got the baton, in order. -/
  acquired : List ι
  /-- The values that have been taken, in order. -/
  taken : List (Taking ι α)
  /-- The values that were given up by their owner. -/
  dropped : List (ι × α)
  nodup : (arrivals.map Prod.fst).Nodup
  order : acquired ++ (merged ++ pending.map Prod.fst) = arrivals.map Prod.fst
  idle : baton = .free → merged = [] ∧ pending = []
  ready : ∀ failed, baton = .signalled failed ∨ baton = .called failed →
    merged ++ pending.map Prod.fst ≠ []
  last : ∀ i, baton.person = some i → acquired.getLast? = some i
  fresh : ∀ i v, baton = .front i (some v) → merged = []
  kept : (taken.map Taking.item ++ (baton.own ++ pending)).Sublist arrivals
  account :
    (dropped ++ (taken.map Taking.item ++ (baton.own ++ pending))).Perm arrivals
  takers : ∀ r ∈ taken, r.taker ∈ acquired
  unserved : ∀ i v, baton = .front i (some v) → ∀ r ∈ taken, r.taker ≠ i
  merged_taken : ∀ o ∈ merged, ∃ r ∈ taken, r.owner = o ∧ r.taker ≠ o
  served : ∀ i, baton = .serving i →
    taken.getLast?.map Taking.taker = some i ∧
      ∀ r ∈ taken, r.taker = i → r.owner = i ∨ r.owner ∈ merged
  batch : ∀ r ∈ taken, r.owner ∈ merged →
    taken.getLast?.map Taking.taker = some r.taker

namespace Line

/-- The people in the line, head first. -/
def ids (l : Line ι α) : List ι := l.merged ++ l.pending.map Prod.fst

/-- The line as a list of people with the value that each still has. -/
def slots (l : Line ι α) : List (ι × Option α) :=
  l.merged.map (fun i => (i, none)) ++ l.pending.map (fun p => (p.1, some p.2))

/-- What `i` sees of the line. -/
def stage [DecidableEq ι] (l : Line ι α) (i : ι) : Stage α :=
  l.baton.stageIn l.ids i

/-- The line before anybody has arrived. -/
def empty : Line ι α where
  baton := .free
  merged := []
  pending := []
  arrivals := []
  acquired := []
  taken := []
  dropped := []
  nodup := by simp
  order := by simp
  idle := by simp
  ready := by simp
  last := by simp [Baton.person]
  fresh := by simp
  kept := by simp [Baton.own]
  account := by simp [Baton.own]
  takers := by simp
  unserved := by simp
  merged_taken := by simp
  served := by simp
  batch := by simp

/-! ## The invariants as facts about people -/

theorem acquired_append_ids (l : Line ι α) :
    l.acquired ++ l.ids = l.arrivals.map Prod.fst := l.order

theorem nodup_ids (l : Line ι α) : l.ids.Nodup := by
  have h := l.nodup
  rw [← l.acquired_append_ids] at h
  exact h.of_append_right

theorem nodup_acquired (l : Line ι α) : l.acquired.Nodup := by
  have h := l.nodup
  rw [← l.acquired_append_ids] at h
  exact h.of_append_left

/-- Somebody that has got the baton is not in the line any more. -/
theorem not_mem_ids_of_acquired (l : Line ι α) {i : ι}
    (h : i ∈ l.acquired) : i ∉ l.ids := by
  have hnodup := l.nodup
  rw [← l.acquired_append_ids] at hnodup
  exact fun hi => (List.nodup_append.mp hnodup).2.2 i h i hi rfl

theorem mem_arrivals_of_acquired (l : Line ι α) {i : ι}
    (h : i ∈ l.acquired) : i ∈ l.arrivals.map Prod.fst := by
  rw [← l.acquired_append_ids]
  exact List.mem_append_left _ h

theorem mem_arrivals_of_ids (l : Line ι α) {i : ι}
    (h : i ∈ l.ids) : i ∈ l.arrivals.map Prod.fst := by
  rw [← l.acquired_append_ids]
  exact List.mem_append_right _ h

theorem mem_acquired_of_person (l : Line ι α) {i : ι}
    (h : l.baton.person = some i) : i ∈ l.acquired :=
  List.mem_of_getLast? (l.last i h)

/-- The person that has the baton outside the line is not in the line. -/
theorem not_mem_ids_of_person (l : Line ι α) {i : ι}
    (h : l.baton.person = some i) : i ∉ l.ids :=
  l.not_mem_ids_of_acquired (l.mem_acquired_of_person h)

/-- The people of the accounting are pairwise different. -/
theorem nodup_account (l : Line ι α) :
    ((l.dropped ++ (l.taken.map Taking.item ++
      (l.baton.own ++ l.pending))).map Prod.fst).Nodup :=
  (l.account.map Prod.fst).nodup_iff.mpr l.nodup

/-- Nobody whose value has been taken still waits with it. -/
theorem not_mem_waiting_of_taken (l : Line ι α) {r : Taking ι α}
    (hr : r ∈ l.taken) : r.owner ∉ (l.baton.own ++ l.pending).map Prod.fst := by
  have h := l.nodup_account
  rw [List.map_append, List.map_append] at h
  have hsplit := (List.nodup_append.mp h.of_append_right).2.2
  intro hmem
  refine hsplit r.owner ?_ r.owner hmem rfl
  exact List.mem_map.mpr ⟨r.item, List.mem_map_of_mem hr, rfl⟩

/-- Whoever stands in the line and has had its value taken is merged. -/
theorem mem_merged_of_taken (l : Line ι α) {r : Taking ι α}
    (hr : r ∈ l.taken) (hi : r.owner ∈ l.ids) : r.owner ∈ l.merged := by
  rw [ids, List.mem_append] at hi
  refine hi.resolve_right fun hpending => l.not_mem_waiting_of_taken hr ?_
  rw [List.map_append]
  exact List.mem_append_right _ hpending

/-- The values of all merged people were taken by one person. -/
theorem taker_unique (l : Line ι α) {r r' : Taking ι α} (hr : r ∈ l.taken)
    (hr' : r' ∈ l.taken) (hm : r.owner ∈ l.merged)
    (hm' : r'.owner ∈ l.merged) : r.taker = r'.taker := by
  have hlast := l.batch r hr hm
  rw [l.batch r' hr' hm', Option.some.injEq] at hlast
  exact hlast.symm

/-- Nobody that has given up its value has had it taken. -/
theorem not_mem_taken_of_dropped (l : Line ι α) {p : ι × α}
    (hp : p ∈ l.dropped) : ∀ r ∈ l.taken, r.owner ≠ p.1 := by
  have h := l.nodup_account
  rw [List.map_append, List.map_append] at h
  have hsplit := (List.nodup_append.mp h).2.2
  intro r hr heq
  refine hsplit p.1 (List.mem_map_of_mem hp) p.1 ?_ rfl
  refine List.mem_append_left _ ?_
  exact List.mem_map.mpr ⟨r.item, List.mem_map_of_mem hr, heq⟩

/-- A value is taken once. -/
theorem taken_unique (l : Line ι α) {r r' : Taking ι α} (hr : r ∈ l.taken)
    (hr' : r' ∈ l.taken) (howner : r.owner = r'.owner) : r = r' := by
  have h := l.nodup_account
  simp only [List.map_append, List.map_map] at h
  have htaken := h.of_append_right.of_append_left
  exact List.inj_on_of_nodup_map htaken hr hr' howner

theorem slots_map_fst (l : Line ι α) : l.slots.map Prod.fst = l.ids := by
  simp [slots, ids, Function.comp_def]

/-! ## The operations -/

/-- `i` arrives at an empty line and takes the baton. -/
def flip (l : Line ι α) (i : ι) (v : α) (hfree : l.baton = .free)
    (hnew : i ∉ l.arrivals.map Prod.fst) : Line ι α where
  baton := .front i (some v)
  merged := l.merged
  pending := l.pending
  arrivals := l.arrivals ++ [(i, v)]
  acquired := l.acquired ++ [i]
  taken := l.taken
  dropped := l.dropped
  nodup := by
    rw [List.map_append]
    exact List.nodup_append.mpr ⟨l.nodup, by simp,
      fun a ha b hb hab => hnew (by simp_all)⟩
  order := by
    obtain ⟨hm, hp⟩ := l.idle hfree
    have h := l.order
    simp only [hm, hp, List.map_nil, List.append_nil] at h ⊢
    simp [h]
  idle := by simp
  ready := by simp
  last := by simp [Baton.person]
  fresh := fun _ _ _ => (l.idle hfree).1
  kept := by
    have h := l.kept
    rw [hfree] at h
    simp only [(l.idle hfree).2, Baton.own, List.append_nil] at h ⊢
    exact h.append (List.Sublist.refl _)
  account := by
    have h := l.account
    rw [hfree] at h
    simp only [(l.idle hfree).2, Baton.own, List.append_nil] at h ⊢
    rw [← List.append_assoc]
    exact h.append_right _
  takers := fun r hr => List.mem_append_left _ (l.takers r hr)
  unserved := by
    intro j v' hj r hr hrj
    simp only [Baton.front.injEq] at hj
    exact hnew (hj.1 ▸ hrj ▸ l.mem_arrivals_of_acquired (l.takers r hr))
  merged_taken := l.merged_taken
  served := by simp
  batch := l.batch

/-- `i` joins the end of the line, while somebody else has the baton. -/
def push (l : Line ι α) (i : ι) (v : α) (hbusy : l.baton ≠ .free)
    (hnew : i ∉ l.arrivals.map Prod.fst) : Line ι α where
  baton := l.baton
  merged := l.merged
  pending := l.pending ++ [(i, v)]
  arrivals := l.arrivals ++ [(i, v)]
  acquired := l.acquired
  taken := l.taken
  dropped := l.dropped
  nodup := by
    rw [List.map_append]
    exact List.nodup_append.mpr ⟨l.nodup, by simp,
      fun a ha b hb hab => hnew (by simp_all)⟩
  order := by
    have h := l.order
    simp only [List.map_append, ← h]
    simp
  idle := fun h => absurd h hbusy
  ready := by simp
  last := l.last
  fresh := l.fresh
  kept := by
    simpa only [← List.append_assoc] using
      l.kept.append (List.Sublist.refl [(i, v)])
  account := by
    simpa only [← List.append_assoc] using l.account.append_right [(i, v)]
  takers := l.takers
  unserved := l.unserved
  merged_taken := l.merged_taken
  served := l.served
  batch := l.batch

/-- The person with the baton passes it to the head of the line, or puts it
down when the line is empty. -/
def pass (l : Line ι α) (i : ι) (failed : Bool)
    (hfront : l.baton = .front i none) : Line ι α where
  baton := if l.ids = [] then .free else .signalled failed
  merged := l.merged
  pending := l.pending
  arrivals := l.arrivals
  acquired := l.acquired
  taken := l.taken
  dropped := l.dropped
  nodup := l.nodup
  order := l.order
  idle := by
    intro h
    split at h
    · rename_i hids
      simpa [ids] using hids
    · simp at h
  ready := by
    intro _ _
    split at * <;> simp_all [ids]
  last := by
    intro j hj
    split at hj <;> simp [Baton.person] at hj
  fresh := by
    intro j v hj
    split at hj <;> simp at hj
  kept := by
    have h := l.kept
    rw [hfront] at h
    split <;> exact h
  account := by
    have h := l.account
    rw [hfront] at h
    split <;> exact h
  takers := l.takers
  unserved := by
    intro j v hj
    split at hj <;> simp at hj
  merged_taken := l.merged_taken
  served := by
    intro j hj
    split at hj <;> simp at hj
  batch := l.batch

/-- The head of the line sees the signal. -/
def call (l : Line ι α) (failed : Bool)
    (hsignal : l.baton = .signalled failed) : Line ι α where
  baton := .called failed
  merged := l.merged
  pending := l.pending
  arrivals := l.arrivals
  acquired := l.acquired
  taken := l.taken
  dropped := l.dropped
  nodup := l.nodup
  order := l.order
  idle := by simp
  ready := fun _ _ => l.ready failed (.inl hsignal)
  last := by simp [Baton.person]
  fresh := by simp
  kept := by simpa [hsignal, Baton.own] using l.kept
  account := by simpa [hsignal, Baton.own] using l.account
  takers := l.takers
  unserved := by simp
  merged_taken := l.merged_taken
  served := by simp
  batch := l.batch

/-- The head of the line, whose value has been taken, leaves the line with the
baton. -/
def takeMerged (l : Line ι α) (failed : Bool) (i : ι) (rest : List ι)
    (hcalled : l.baton = .called failed) (hhead : l.merged = i :: rest) :
    Line ι α where
  baton := .front i none
  merged := rest
  pending := l.pending
  arrivals := l.arrivals
  acquired := l.acquired ++ [i]
  taken := l.taken
  dropped := l.dropped
  nodup := l.nodup
  order := by simpa [hhead] using l.order
  idle := by simp
  ready := by simp
  last := by simp [Baton.person]
  fresh := by simp
  kept := by simpa [hcalled, Baton.own] using l.kept
  account := by simpa [hcalled, Baton.own] using l.account
  takers := fun r hr => List.mem_append_left _ (l.takers r hr)
  unserved := by simp
  merged_taken := fun o ho => l.merged_taken o (by simp [hhead, ho])
  served := by simp
  batch := fun r hr ho => l.batch r hr (by simp [hhead, ho])

/-- The head of the line, whose value is still there, leaves the line with the
baton. -/
def takePending (l : Line ι α) (failed : Bool) (i : ι) (v : α)
    (rest : List (ι × α)) (hcalled : l.baton = .called failed)
    (hmerged : l.merged = []) (hhead : l.pending = (i, v) :: rest) :
    Line ι α where
  baton := .front i (some v)
  merged := []
  pending := rest
  arrivals := l.arrivals
  acquired := l.acquired ++ [i]
  taken := l.taken
  dropped := l.dropped
  nodup := l.nodup
  order := by simpa [hmerged, hhead] using l.order
  idle := by simp
  ready := by simp
  last := by simp [Baton.person]
  fresh := by simp
  kept := by simpa [hcalled, hhead, Baton.own] using l.kept
  account := by simpa [hcalled, hhead, Baton.own] using l.account
  takers := fun r hr => List.mem_append_left _ (l.takers r hr)
  unserved := by
    intro j v' hj r hr hrj
    simp only [Baton.front.injEq] at hj
    refine l.not_mem_ids_of_acquired (l.takers r hr) ?_
    rw [hrj, ← hj.1]
    simp [ids, hhead]
  merged_taken := by simp
  served := by simp
  batch := by simp

/-- The person with the baton gives up its value without service. -/
def drop (l : Line ι α) (i : ι) (v : α)
    (hfront : l.baton = .front i (some v)) : Line ι α where
  baton := .front i none
  merged := l.merged
  pending := l.pending
  arrivals := l.arrivals
  acquired := l.acquired
  taken := l.taken
  dropped := l.dropped ++ [(i, v)]
  nodup := l.nodup
  order := l.order
  idle := by simp
  ready := by simp
  last := fun j hj => l.last j (by rw [hfront]; exact hj)
  fresh := by simp
  kept := by
    have h := l.kept
    rw [hfront] at h
    refine List.Sublist.trans ?_ h
    exact (List.Sublist.refl _).append (List.sublist_append_right _ _)
  account := by
    have h := l.account
    rw [hfront] at h
    refine List.Perm.trans ?_ h
    simp only [Baton.own, List.nil_append, List.append_assoc]
    refine List.Perm.append_left _ ?_
    rw [← List.append_assoc, ← List.append_assoc]
    exact List.Perm.append_right _ List.perm_append_comm
  takers := l.takers
  unserved := by simp
  merged_taken := l.merged_taken
  served := by simp
  batch := l.batch

/-- The person with the baton starts its service with its own value. -/
def start (l : Line ι α) (i : ι) (v : α)
    (hfront : l.baton = .front i (some v)) : Line ι α where
  baton := .serving i
  merged := l.merged
  pending := l.pending
  arrivals := l.arrivals
  acquired := l.acquired
  taken := l.taken ++ [⟨i, i, v⟩]
  dropped := l.dropped
  nodup := l.nodup
  order := l.order
  idle := by simp
  ready := by simp
  last := fun j hj => l.last j (by rw [hfront]; exact hj)
  fresh := by simp
  kept := by simpa [hfront, Baton.own, Taking.item] using l.kept
  account := by simpa [hfront, Baton.own, Taking.item] using l.account
  takers := by
    intro r hr
    rcases List.mem_append.mp hr with hr | hr
    · exact l.takers r hr
    · rw [List.mem_singleton.mp hr]
      exact l.mem_acquired_of_person (by rw [hfront]; rfl)
  unserved := by simp
  merged_taken := by simp [l.fresh i v hfront]
  served := by
    intro j hj
    simp only [Baton.serving.injEq] at hj
    subst hj
    refine ⟨by simp, ?_⟩
    intro r hr hri
    rcases List.mem_append.mp hr with hr | hr
    · exact absurd hri (l.unserved i v hfront r hr)
    · rw [List.mem_singleton.mp hr]
      exact Or.inl rfl
  batch := by simp [l.fresh i v hfront]

/-- The person that is served takes the value of the first person behind it
that still has one. -/
def pop (l : Line ι α) (i o : ι) (v : α) (rest : List (ι × α))
    (hserving : l.baton = .serving i) (hhead : l.pending = (o, v) :: rest) :
    Line ι α where
  baton := .serving i
  merged := l.merged ++ [o]
  pending := rest
  arrivals := l.arrivals
  acquired := l.acquired
  taken := l.taken ++ [⟨i, o, v⟩]
  dropped := l.dropped
  nodup := l.nodup
  order := by simpa [hhead] using l.order
  idle := by simp
  ready := by simp
  last := fun j hj => l.last j (by rw [hserving]; exact hj)
  fresh := by simp
  kept := by simpa [hserving, hhead, Baton.own, Taking.item] using l.kept
  account := by simpa [hserving, hhead, Baton.own, Taking.item] using l.account
  takers := by
    intro r hr
    rcases List.mem_append.mp hr with hr | hr
    · exact l.takers r hr
    · rw [List.mem_singleton.mp hr]
      exact l.mem_acquired_of_person (by rw [hserving]; rfl)
  unserved := by simp
  merged_taken := by
    intro p hp
    rcases List.mem_append.mp hp with hp | hp
    · obtain ⟨r, hr, hrp⟩ := l.merged_taken p hp
      exact ⟨r, List.mem_append_left _ hr, hrp⟩
    · refine ⟨⟨i, o, v⟩, by simp, (List.mem_singleton.mp hp).symm, ?_⟩
      rw [List.mem_singleton.mp hp]
      rintro (rfl : i = o)
      refine l.not_mem_ids_of_person (i := i) (by rw [hserving]; rfl) ?_
      simp [ids, hhead]
  served := by
    intro j hj
    simp only [Baton.serving.injEq] at hj
    subst hj
    refine ⟨by simp, ?_⟩
    intro r hr hri
    rcases List.mem_append.mp hr with hr | hr
    · exact ((l.served i hserving).2 r hr hri).imp_right
        (List.mem_append_left _)
    · rw [List.mem_singleton.mp hr]
      exact Or.inr (by simp)
  batch := by
    intro r hr ho
    rw [List.getLast?_concat]
    rcases List.mem_append.mp hr with hr | hr
    · rcases List.mem_append.mp ho with ho | ho
      · rw [← l.batch r hr ho, (l.served i hserving).1]
        rfl
      · rw [List.mem_singleton] at ho
        refine absurd (l.not_mem_waiting_of_taken hr) (not_not_intro ?_)
        rw [hserving, hhead, ho]
        simp
    · rw [List.mem_singleton.mp hr]
      rfl

/-- The service ends. -/
def finish (l : Line ι α) (i : ι) (hserving : l.baton = .serving i) :
    Line ι α where
  baton := .front i none
  merged := l.merged
  pending := l.pending
  arrivals := l.arrivals
  acquired := l.acquired
  taken := l.taken
  dropped := l.dropped
  nodup := l.nodup
  order := l.order
  idle := by simp
  ready := by simp
  last := fun j hj => l.last j (by rw [hserving]; exact hj)
  fresh := by simp
  kept := by simpa [hserving, Baton.own] using l.kept
  account := by simpa [hserving, Baton.own] using l.account
  takers := l.takers
  unserved := by simp
  merged_taken := l.merged_taken
  served := by simp
  batch := l.batch

/-! ## The stages -/

section Stages

theorem mem_ids_or_person_of_holder (l : Line ι α) {i : ι}
    (h : l.baton.holder l.ids = some i) :
    i ∈ l.ids ∨ l.baton.person = some i := by
  rcases hb : l.baton with _ | f | f | ⟨j, w⟩ | j <;>
    simp only [Baton.holder, hb, reduceCtorEq, Option.some.injEq] at h
  · exact Or.inl (List.mem_of_head? h)
  · exact Or.inl (List.mem_of_head? h)
  · exact Or.inr (by simp [Baton.person, h])
  · exact Or.inr (by simp [Baton.person, h])

variable [DecidableEq ι]

theorem stage_eq_serving (l : Line ι α) (i : ι) :
    l.stage i = .serving ↔ l.baton = .serving i := by
  rcases hb : l.baton with _ | f | f | ⟨j, v⟩ | j <;>
    simp only [stage, Baton.stageIn, Baton.holder, hb, Baton.stage] <;>
    split_ifs <;> simp_all

theorem stage_eq_front (l : Line ι α) (i : ι) (v : Option α) :
    l.stage i = .front v ↔ l.baton = .front i v := by
  rcases hb : l.baton with _ | f | f | ⟨j, w⟩ | j <;>
    simp only [stage, Baton.stageIn, Baton.holder, hb, Baton.stage] <;>
    split_ifs <;> simp_all

theorem stage_eq_called (l : Line ι α) (i : ι) (failed : Bool) :
    l.stage i = .called failed ↔
      l.baton = .called failed ∧ l.ids.head? = some i := by
  rcases hb : l.baton with _ | f | f | ⟨j, w⟩ | j <;>
    simp only [stage, Baton.stageIn, Baton.holder, hb, Baton.stage] <;>
    split_ifs <;> simp_all

theorem stage_eq_signalled (l : Line ι α) (i : ι) (failed : Bool) :
    l.stage i = .waiting (some failed) ↔
      l.baton = .signalled failed ∧ l.ids.head? = some i := by
  rcases hb : l.baton with _ | f | f | ⟨j, w⟩ | j <;>
    simp only [stage, Baton.stageIn, Baton.holder, hb, Baton.stage] <;>
    split_ifs <;> simp_all

/-- The people in the line are the ones that wait or that have been called. -/
theorem mem_ids_iff_stage (l : Line ι α) (i : ι) :
    i ∈ l.ids ↔ (∃ s, l.stage i = .waiting s) ∨ ∃ f, l.stage i = .called f := by
  have hperson := fun hp => l.not_mem_ids_of_person (i := i) hp
  have hmem := l.mem_ids_or_person_of_holder (i := i)
  rcases hb : l.baton with _ | f | f | ⟨j, w⟩ | j <;>
    simp only [stage, Baton.stageIn, Baton.holder, hb, Baton.stage,
      Baton.person] at hperson hmem ⊢ <;>
    split_ifs <;> simp_all

/-- Somebody that has not arrived is outside. -/
theorem stage_of_not_arrived (l : Line ι α) {i : ι}
    (h : i ∉ l.arrivals.map Prod.fst) : l.stage i = .outside := by
  have hids : i ∉ l.ids := fun hi => h (l.mem_arrivals_of_ids hi)
  have hh : l.baton.holder l.ids ≠ some i := by
    intro hh
    rcases l.mem_ids_or_person_of_holder hh with hi | hp
    · exact hids hi
    · exact h (l.mem_arrivals_of_acquired (l.mem_acquired_of_person hp))
  rw [stage, Baton.stageIn, if_neg hh, if_neg hids]

/-- While somebody has the baton outside the line, the people in the line
only wait. -/
theorem stage_of_person (l : Line ι α) {i j : ι}
    (h : l.baton.person = some j) (hi : i ∈ l.ids) :
    l.stage i = .waiting none := by
  have hij : j ≠ i := by
    rintro rfl
    exact l.not_mem_ids_of_person h hi
  rcases hb : l.baton with _ | f | f | ⟨k, w⟩ | k <;>
    simp_all [Baton.person, stage, Baton.stageIn, Baton.holder]

/-- The stage, read off a baton and a line of people that are known. -/
theorem stage_eq_stageIn {l : Line ι α} {b : Baton ι α} {is : List ι}
    (hb : l.baton = b) (hids : l.ids = is) : l.stage = b.stageIn is := by
  subst hb hids
  rfl

/-- A baton that moves to `i`, who is not in the line afterwards, changes the
stage of `i` only. -/
theorem stageIn_person {b b' : Baton ι α} {is is' : List ι} {i : ι}
    (hb : b.holder is = none ∨ b.holder is = some i)
    (hb' : b'.holder is' = some i) (hids : ∀ j, j ≠ i → (j ∈ is' ↔ j ∈ is)) :
    b'.stageIn is' = Function.update (b.stageIn is) i b'.stage := by
  funext j
  by_cases hj : j = i
  · subst hj
    simp [Baton.stageIn, hb']
  · rcases hb with hb | hb <;>
      simp [Baton.stageIn, hb, hb', hj, Ne.symm hj, hids j hj]

theorem stage_flip (l : Line ι α) (i : ι) (v : α) (hfree : l.baton = .free)
    (hnew : i ∉ l.arrivals.map Prod.fst) :
    (l.flip i v hfree hnew).stage =
      Function.update l.stage i (.front (some v)) :=
  stageIn_person (Or.inl (by rw [hfree]; rfl)) rfl (fun _ _ => Iff.rfl)

theorem stage_push (l : Line ι α) (i : ι) (v : α) (hbusy : l.baton ≠ .free)
    (hnew : i ∉ l.arrivals.map Prod.fst) :
    (l.push i v hbusy hnew).stage =
      Function.update l.stage i (.waiting none) := by
  have hids : (l.push i v hbusy hnew).ids = l.ids ++ [i] := by
    simp [ids, push]
  have hholder : l.baton.holder (l.ids ++ [i]) = l.baton.holder l.ids := by
    rcases hb : l.baton with _ | f | f | ⟨k, w⟩ | k
    · exact absurd hb hbusy
    · exact List.head?_append_of_ne_nil _ (l.ready f (.inl hb))
    · exact List.head?_append_of_ne_nil _ (l.ready f (.inr hb))
    · rfl
    · rfl
  rw [stage_eq_stageIn (l := l.push i v hbusy hnew) rfl hids]
  funext j
  by_cases hj : j = i
  · subst hj
    have hh : l.baton.holder l.ids ≠ some j := by
      intro hh
      rcases l.mem_ids_or_person_of_holder hh with hi | hp
      · exact hnew (l.mem_arrivals_of_ids hi)
      · exact hnew (l.mem_arrivals_of_acquired (l.mem_acquired_of_person hp))
    simp [Baton.stageIn, hholder, hh, push]
  · simp [stage, Baton.stageIn, hholder, hj, push]

theorem stage_pass_nil (l : Line ι α) (i : ι) (failed : Bool)
    (hfront : l.baton = .front i none) (hids : l.ids = []) :
    (l.pass i failed hfront).stage = Function.update l.stage i .outside := by
  have hbaton : (l.pass i failed hfront).baton = .free := if_pos hids
  rw [stage_eq_stageIn (l := l.pass i failed hfront) hbaton hids,
    stage_eq_stageIn (l := l) hfront hids]
  funext j
  by_cases hj : j = i
  · simp [Baton.stageIn, Baton.holder, hj]
  · simp [Baton.stageIn, Baton.holder, hj, Ne.symm hj]

theorem stage_pass_cons (l : Line ι α) (i : ι) (failed : Bool)
    (hfront : l.baton = .front i none) {k : ι} {rest : List ι}
    (hids : l.ids = k :: rest) :
    (l.pass i failed hfront).stage =
      Function.update (Function.update l.stage i .outside) k
        (.waiting (some failed)) := by
  have hi : i ∉ l.ids := l.not_mem_ids_of_person (by rw [hfront]; rfl)
  have hbaton : (l.pass i failed hfront).baton = .signalled failed :=
    if_neg (by simp [hids])
  rw [stage_eq_stageIn (l := l.pass i failed hfront) hbaton hids,
    stage_eq_stageIn (l := l) hfront hids]
  rw [hids] at hi
  funext j
  by_cases hk : j = k
  · simp [Baton.stageIn, Baton.holder, Baton.stage, hk]
  · by_cases hj : j = i
    · subst hj
      simp_all [Baton.stageIn, Baton.holder, Ne.symm hk]
    · simp [Baton.stageIn, Baton.holder, hj, hk, Ne.symm hj, Ne.symm hk]

theorem stage_call (l : Line ι α) (failed : Bool)
    (hsignal : l.baton = .signalled failed) {k : ι}
    (hhead : l.ids.head? = some k) :
    (l.call failed hsignal).stage =
      Function.update l.stage k (.called failed) :=
  stageIn_person (Or.inr (by rw [hsignal]; exact hhead)) hhead
    (fun _ _ => Iff.rfl)

theorem stage_takeMerged (l : Line ι α) (failed : Bool) (i : ι)
    (rest : List ι) (hcalled : l.baton = .called failed)
    (hhead : l.merged = i :: rest) :
    (l.takeMerged failed i rest hcalled hhead).stage =
      Function.update l.stage i (.front none) := by
  have hids : l.ids = i :: (l.takeMerged failed i rest hcalled hhead).ids := by
    simp [ids, takeMerged, hhead]
  refine stageIn_person (Or.inr ?_) rfl (fun j hj => ?_)
  · rw [hcalled, hids]
    rfl
  · rw [hids]
    simp [hj]

theorem stage_takePending (l : Line ι α) (failed : Bool) (i : ι) (v : α)
    (rest : List (ι × α)) (hcalled : l.baton = .called failed)
    (hmerged : l.merged = []) (hhead : l.pending = (i, v) :: rest) :
    (l.takePending failed i v rest hcalled hmerged hhead).stage =
      Function.update l.stage i (.front (some v)) := by
  have hids : l.ids =
      i :: (l.takePending failed i v rest hcalled hmerged hhead).ids := by
    simp [ids, takePending, hmerged, hhead]
  refine stageIn_person (Or.inr ?_) rfl (fun j hj => ?_)
  · rw [hcalled, hids]
    rfl
  · rw [hids]
    simp [hj]

theorem stage_drop (l : Line ι α) (i : ι) (v : α)
    (hfront : l.baton = .front i (some v)) :
    (l.drop i v hfront).stage = Function.update l.stage i (.front none) :=
  stageIn_person (Or.inr (by rw [hfront]; rfl)) rfl (fun _ _ => Iff.rfl)

theorem stage_start (l : Line ι α) (i : ι) (v : α)
    (hfront : l.baton = .front i (some v)) :
    (l.start i v hfront).stage = Function.update l.stage i .serving :=
  stageIn_person (Or.inr (by rw [hfront]; rfl)) rfl (fun _ _ => Iff.rfl)

theorem stage_pop (l : Line ι α) (i o : ι) (v : α) (rest : List (ι × α))
    (hserving : l.baton = .serving i) (hhead : l.pending = (o, v) :: rest) :
    (l.pop i o v rest hserving hhead).stage = l.stage := by
  have hids : (l.pop i o v rest hserving hhead).ids = l.ids := by
    simp [ids, pop, hhead]
  rw [stage_eq_stageIn (l := l.pop i o v rest hserving hhead)
    hserving.symm hids]
  rfl

theorem stage_finish (l : Line ι α) (i : ι) (hserving : l.baton = .serving i) :
    (l.finish i hserving).stage = Function.update l.stage i (.front none) :=
  stageIn_person (Or.inr (by rw [hserving]; rfl)) rfl
    (fun _ _ => Iff.rfl)

end Stages

/-! ## The place of the baton -/

section OnePlace

variable [DecidableEq ι]

/-- The people that have the baton and know it. -/
def holders (l : Line ι α) : Set ι := {i | (l.stage i).holds = true}

theorem holds_iff (l : Line ι α) (i : ι) : (l.stage i).holds = true ↔
    l.baton.stage.holds = true ∧ l.baton.holder l.ids = some i := by
  unfold stage Baton.stageIn
  split_ifs with h
  · simp [h]
  · simp [h, Stage.holds]
  · simp [h, Stage.holds]

theorem isTold_iff (l : Line ι α) (i : ι) : (l.stage i).isTold = true ↔
    l.baton.stage.isTold = true ∧ l.baton.holder l.ids = some i := by
  unfold stage Baton.stageIn
  split_ifs with h
  · simp [h]
  · simp [h, Stage.isTold]
  · simp [h, Stage.isTold]

/-- One person has the baton. -/
theorem holds_unique (l : Line ι α) {i j : ι}
    (hi : (l.stage i).holds = true) (hj : (l.stage j).holds = true) :
    i = j := by
  have hi' := ((l.holds_iff i).mp hi).2
  have hj' := ((l.holds_iff j).mp hj).2
  exact Option.some.inj (hi'.symm.trans hj')

/-- While somebody stands in the line, somebody has the baton or has been
told. -/
theorem exists_holder (l : Line ι α) {i : ι} (hi : i ∈ l.ids) :
    ∃ k, (l.stage k).holds = true ∨ (l.stage k).isTold = true := by
  have hne : l.merged ++ l.pending.map Prod.fst ≠ [] :=
    List.ne_nil_of_mem hi
  obtain ⟨j, rest, hhead⟩ := List.exists_cons_of_ne_nil hne
  have hids : l.ids.head? = some j := by rw [ids, hhead]; rfl
  rcases hb : l.baton with _ | f | f | ⟨k, v⟩ | k
  · obtain ⟨hmerged, hpending⟩ := l.idle hb
    simp [hmerged, hpending] at hne
  · exact ⟨j, Or.inr ((l.isTold_iff j).mpr (by rw [hb]; exact ⟨rfl, hids⟩))⟩
  · exact ⟨j, Or.inl ((l.holds_iff j).mpr (by rw [hb]; exact ⟨rfl, hids⟩))⟩
  · exact ⟨k, Or.inl ((l.holds_iff k).mpr (by rw [hb]; exact ⟨rfl, rfl⟩))⟩
  · exact ⟨k, Or.inl ((l.holds_iff k).mpr (by rw [hb]; exact ⟨rfl, rfl⟩))⟩

/-- The people of a list without duplicates that have a property that only
`i` has. -/
theorem countP_eq_one {is : List ι} {p : ι → Bool} {i : ι} (hi : i ∈ is)
    (hnodup : is.Nodup) (hp : ∀ j, p j = true ↔ j = i) : is.countP p = 1 := by
  have heq : p = fun j => j == i := by
    funext j
    rw [Bool.eq_iff_iff, hp j, beq_iff_eq]
  rw [heq]
  exact List.count_eq_one_of_mem hnodup hi

/-- The baton is in one place: it has one holder or one person has been told,
and none of the two while it is free. -/
theorem one_place (l : Line ι α) :
    l.holders.encard + (l.ids.countP fun i => (l.stage i).isTold : ℕ) =
      if l.baton.stage.holds || l.baton.stage.isTold then 1 else 0 := by
  have hhead : ∀ f, l.baton = .signalled f ∨ l.baton = .called f →
      ∃ k, l.ids.head? = some k := by
    intro f hf
    obtain ⟨k, rest, hk⟩ := List.exists_cons_of_ne_nil (l.ready f hf)
    exact ⟨k, by rw [ids, hk]; rfl⟩
  have hset : ∀ k, l.baton.stage.holds = true →
      l.baton.holder l.ids = some k → l.holders = {k} := by
    intro k hholds hk
    ext i
    rw [holders, Set.mem_ofPred_eq, l.holds_iff, hk]
    simp [hholds, eq_comm]
  have hempty : l.baton.stage.holds = false → l.holders = ∅ := by
    intro hholds
    ext i
    rw [holders, Set.mem_ofPred_eq, l.holds_iff, hholds]
    simp
  have hnone : l.baton.stage.isTold = false →
      (l.ids.countP fun i => (l.stage i).isTold) = 0 := by
    intro htold
    rw [List.countP_eq_zero]
    intro i _
    rw [l.isTold_iff, htold]
    simp
  rcases hb : l.baton with _ | f | f | ⟨j, v⟩ | j
  case free =>
    rw [hempty (by rw [hb]; rfl), hnone (by rw [hb]; rfl)]
    simp [Baton.stage, Stage.holds, Stage.isTold]
  case signalled =>
    obtain ⟨k, hk⟩ := hhead f (.inl hb)
    have hcount := countP_eq_one (p := fun i => (l.stage i).isTold)
      (List.mem_of_head? hk) l.nodup_ids (fun j => by
        rw [l.isTold_iff, hb, Baton.holder, hk]
        simp [Baton.stage, Stage.isTold, eq_comm])
    rw [hempty (by rw [hb]; rfl), hcount]
    simp [Baton.stage, Stage.holds, Stage.isTold]
  case called =>
    obtain ⟨k, hk⟩ := hhead f (.inr hb)
    rw [hset k (by rw [hb]; rfl) (by rw [hb]; exact hk),
      hnone (by rw [hb]; rfl)]
    simp [Baton.stage, Stage.holds]
  case front =>
    rw [hset j (by rw [hb]; rfl) (by rw [hb]; rfl), hnone (by rw [hb]; rfl)]
    simp [Baton.stage, Stage.holds]
  case serving =>
    rw [hset j (by rw [hb]; rfl) (by rw [hb]; rfl), hnone (by rw [hb]; rfl)]
    simp [Baton.stage, Stage.holds]

end OnePlace

/-! ## Steps and accounting -/

/-- One operation on the line. -/
inductive Step : Line ι α → Line ι α → Prop where
  | flip (l : Line ι α) (i v hfree hnew) : Step l (l.flip i v hfree hnew)
  | push (l : Line ι α) (i v hbusy hnew) : Step l (l.push i v hbusy hnew)
  | pass (l : Line ι α) (i failed hfront) : Step l (l.pass i failed hfront)
  | call (l : Line ι α) (failed hsignal) : Step l (l.call failed hsignal)
  | takeMerged (l : Line ι α) (failed i rest hcalled hhead) :
      Step l (l.takeMerged failed i rest hcalled hhead)
  | takePending (l : Line ι α) (failed i v rest hcalled hmerged hhead) :
      Step l (l.takePending failed i v rest hcalled hmerged hhead)
  | drop (l : Line ι α) (i v hfront) : Step l (l.drop i v hfront)
  | start (l : Line ι α) (i v hfront) : Step l (l.start i v hfront)
  | pop (l : Line ι α) (i o v rest hserving hhead) :
      Step l (l.pop i o v rest hserving hhead)
  | finish (l : Line ι α) (i hserving) : Step l (l.finish i hserving)

/-- The baton goes round in the order of the arrivals. -/
theorem acquired_prefix (l : Line ι α) :
    l.acquired <+: l.arrivals.map Prod.fst :=
  ⟨l.ids, l.acquired_append_ids⟩

/-- The values are taken in the order of the arrivals. -/
theorem taken_sublist (l : Line ι α) :
    (l.taken.map Taking.item).Sublist l.arrivals :=
  (List.sublist_append_left _ _).trans l.kept

/-- As long as nobody has given up its value, the values that were taken and
the values that still wait are all the values, in the order of arrival. -/
theorem taken_append_waiting (l : Line ι α) (h : l.dropped = []) :
    l.taken.map Taking.item ++ (l.baton.own ++ l.pending) = l.arrivals := by
  have hperm := l.account
  rw [h, List.nil_append] at hperm
  exact l.kept.eq_of_length hperm.length_eq

/-! ## Portions -/

/-- Nobody that waits with its value has given it up. -/
theorem not_dropped_of_waiting (l : Line ι α) {i : ι}
    (h : i ∈ (l.baton.own ++ l.pending).map Prod.fst) :
    ∀ p ∈ l.dropped, p.1 ≠ i := by
  have hnodup := l.nodup_account
  rw [List.map_append, List.map_append] at hnodup
  intro p hp heq
  exact (List.nodup_append.mp hnodup).2.2 p.1 (List.mem_map_of_mem hp) i
    (List.mem_append_right _ h) heq

theorem not_taker_of_not_acquired (l : Line ι α) {i : ι}
    (h : i ∉ l.acquired) : ∀ r ∈ l.taken, r.taker ≠ i := by
  rintro r hr rfl
  exact h (l.takers r hr)

/-- Somebody gets the baton, and has an empty portion. -/
theorem flatMap_acquire {is : List ι} {i : ι}
    {p : ι → List (ι × α)} (hempty : p i = []) :
    (is ++ [i]).flatMap p = is.flatMap p := by
  rw [List.flatMap_append, List.flatMap_singleton, hempty, List.append_nil]

section Portions

variable [DecidableEq ι] {l l' : Line ι α} {i : ι}

/-- What `i` did with the values of the line: it gave up its own value, or took
values. -/
def portion (dropped : List (ι × α)) (taken : List (Taking ι α)) (i : ι) :
    List (ι × α) :=
  dropped.filter (fun p => p.1 = i) ++
    (taken.filter fun r => r.taker = i).map Taking.item

/-- The arrivals are the portions of the people that have got the baton, one
after the other, and the values that still wait.  A portion that is not empty
starts with the value of its owner. -/
structure Portioned (l : Line ι α) : Prop where
  split : l.arrivals = l.acquired.flatMap (portion l.dropped l.taken) ++
    (l.baton.own ++ l.pending)
  headed : ∀ i, portion l.dropped l.taken i = [] ∨
    ∃ v rest, portion l.dropped l.taken i = (i, v) :: rest

theorem portion_eq_nil {dropped : List (ι × α)} {taken : List (Taking ι α)}
    (hdropped : ∀ p ∈ dropped, p.1 ≠ i) (htaken : ∀ r ∈ taken, r.taker ≠ i) :
    portion dropped taken i = [] := by
  rw [portion, List.append_eq_nil_iff, List.map_eq_nil_iff,
    List.filter_eq_nil_iff, List.filter_eq_nil_iff]
  exact ⟨by simpa using hdropped, by simpa using htaken⟩

theorem portion_drop (dropped : List (ι × α)) (i j : ι) (v : α)
    {taken : List (Taking ι α)} (htaken : ∀ r ∈ taken, r.taker ≠ i) :
    portion (dropped ++ [(i, v)]) taken j =
      portion dropped taken j ++ if j = i then [(i, v)] else [] := by
  unfold portion
  rw [List.filter_append]
  split_ifs with hj
  · subst hj
    have hnone : taken.filter (fun r => r.taker = j) = [] := by
      rw [List.filter_eq_nil_iff]
      simpa using htaken
    simp [hnone]
  · simp [Ne.symm hj]

theorem portion_take (dropped : List (ι × α)) (taken : List (Taking ι α))
    (r : Taking ι α) (j : ι) :
    portion dropped (taken ++ [r]) j =
      portion dropped taken j ++ if j = r.taker then [r.item] else [] := by
  unfold portion
  rw [List.filter_append, List.map_append, List.append_assoc]
  split_ifs with hj
  · simp [hj]
  · simp [Ne.symm hj]

/-- The portions of a list of people, when the portion of the last of them
grows. -/
theorem flatMap_of_getLast? {is : List ι} {p q : ι → List (ι × α)}
    {xs : List (ι × α)} (hnodup : is.Nodup) (hlast : is.getLast? = some i)
    (h : ∀ j, q j = p j ++ if j = i then xs else []) :
    is.flatMap q = is.flatMap p ++ xs := by
  obtain ⟨is, rfl⟩ := List.getLast?_eq_some_iff.mp hlast
  have hinit : is.flatMap q = is.flatMap p := by
    refine List.flatMap_congr fun j hj => ?_
    have hne : j ≠ i := by
      rintro rfl
      exact (List.nodup_append.mp hnodup).2.2 j hj j (by simp) rfl
    rw [h j, if_neg hne, List.append_nil]
  rw [List.flatMap_append, List.flatMap_append, hinit, List.append_assoc]
  simp [h i]

/-- The portion of the person with the baton grows. -/
theorem Portioned.grow (h : l.Portioned) {dropped : List (ι × α)}
    {taken : List (Taking ι α)} {p : ι × α}
    (hperson : l.baton.person = some i)
    (hgrow : ∀ j, portion dropped taken j =
      portion l.dropped l.taken j ++ if j = i then [p] else [])
    (hfirst : portion l.dropped l.taken i = [] → p.1 = i) :
    l.acquired.flatMap (portion dropped taken) =
        l.acquired.flatMap (portion l.dropped l.taken) ++ [p] ∧
      ∀ j, portion dropped taken j = [] ∨
        ∃ v rest, portion dropped taken j = (j, v) :: rest := by
  refine ⟨flatMap_of_getLast? l.nodup_acquired (l.last i hperson) hgrow, ?_⟩
  intro j
  rw [hgrow j]
  rcases h.headed j with hnil | ⟨v, rest, hcons⟩
  · rw [hnil, List.nil_append]
    split_ifs with hj
    · subst hj
      exact .inr ⟨p.2, [], by rw [← hfirst hnil]⟩
    · exact .inl rfl
  · rw [hcons]
    exact .inr ⟨v, _, rfl⟩

/-- The people that get the baton take the arrivals in portions. -/
theorem Step.portioned (h : Step l l') (hl : l.Portioned) : l'.Portioned := by
  have hsplit := hl.split
  cases h
  case flip i v hfree hnew =>
    have hempty : portion l.dropped l.taken i = [] := by
      refine portion_eq_nil ?_ (l.not_taker_of_not_acquired
        fun hi => hnew (l.mem_arrivals_of_acquired hi))
      rintro p hp rfl
      exact hnew (List.mem_map_of_mem (l.account.subset
        (List.mem_append_left _ hp)))
    refine ⟨?_, hl.headed⟩
    show l.arrivals ++ [(i, v)] =
      (l.acquired ++ [i]).flatMap (portion l.dropped l.taken) ++
        ([(i, v)] ++ l.pending)
    rw [flatMap_acquire hempty, (l.idle hfree).2, hsplit, hfree,
      (l.idle hfree).2]
    simp [Baton.own]
  case push i v hbusy hnew =>
    refine ⟨?_, hl.headed⟩
    show l.arrivals ++ [(i, v)] =
      l.acquired.flatMap (portion l.dropped l.taken) ++
        (l.baton.own ++ (l.pending ++ [(i, v)]))
    rw [hsplit]
    simp
  case pass i failed hfront =>
    refine ⟨?_, hl.headed⟩
    rw [hfront] at hsplit
    show l.arrivals = l.acquired.flatMap (portion l.dropped l.taken) ++
      (Baton.own (if l.ids = [] then .free else .signalled failed) ++ l.pending)
    split_ifs <;> exact hsplit
  case call failed hsignal =>
    rw [hsignal] at hsplit
    exact ⟨hsplit, hl.headed⟩
  case takeMerged failed i rest hcalled hhead =>
    have hids : i ∈ l.ids := by simp [ids, hhead]
    have hempty : portion l.dropped l.taken i = [] := by
      refine portion_eq_nil (fun p hp => ?_) (l.not_taker_of_not_acquired
        fun hi => l.not_mem_ids_of_acquired hi hids)
      obtain ⟨r, hr, howner, -⟩ := l.merged_taken i (by simp [hhead])
      rw [← howner]
      exact (l.not_mem_taken_of_dropped hp r hr).symm
    refine ⟨?_, hl.headed⟩
    rw [hcalled] at hsplit
    show l.arrivals =
      (l.acquired ++ [i]).flatMap (portion l.dropped l.taken) ++
        ([] ++ l.pending)
    rw [flatMap_acquire hempty]
    exact hsplit
  case takePending failed i v rest hcalled hmerged hhead =>
    have hids : i ∈ l.ids := by simp [ids, hhead]
    have hempty : portion l.dropped l.taken i = [] :=
      portion_eq_nil (l.not_dropped_of_waiting (by simp [hhead]))
        (l.not_taker_of_not_acquired
          fun hi => l.not_mem_ids_of_acquired hi hids)
    refine ⟨?_, hl.headed⟩
    rw [hcalled, hhead] at hsplit
    show l.arrivals =
      (l.acquired ++ [i]).flatMap (portion l.dropped l.taken) ++
        ([(i, v)] ++ rest)
    rw [flatMap_acquire hempty]
    exact hsplit
  case drop i v hfront =>
    rw [hfront] at hsplit
    obtain ⟨hgrow, hheaded⟩ := hl.grow (p := (i, v)) (by rw [hfront]; rfl)
      (fun j => portion_drop l.dropped i j v (l.unserved i v hfront))
      (fun _ => rfl)
    refine ⟨?_, hheaded⟩
    show l.arrivals =
      l.acquired.flatMap (portion (l.dropped ++ [(i, v)]) l.taken) ++
        ([] ++ l.pending)
    rw [hgrow, hsplit]
    simp [Baton.own]
  case start i v hfront =>
    rw [hfront] at hsplit
    obtain ⟨hgrow, hheaded⟩ := hl.grow (p := (i, v)) (by rw [hfront]; rfl)
      (portion_take l.dropped l.taken ⟨i, i, v⟩) (fun _ => rfl)
    refine ⟨?_, hheaded⟩
    show l.arrivals =
      l.acquired.flatMap (portion l.dropped (l.taken ++ [⟨i, i, v⟩])) ++
        ([] ++ l.pending)
    rw [hgrow, hsplit]
    simp [Baton.own]
  case pop i o v rest hserving hhead =>
    have hsome : portion l.dropped l.taken i ≠ [] := by
      obtain ⟨r, hr, htaker⟩ :=
        Option.map_eq_some_iff.mp (l.served i hserving).1
      intro hnil
      rw [portion, List.append_eq_nil_iff, List.map_eq_nil_iff,
        List.filter_eq_nil_iff, List.filter_eq_nil_iff] at hnil
      exact hnil.2 r (List.mem_of_getLast? hr) (by simpa using htaker)
    rw [hserving, hhead] at hsplit
    obtain ⟨hgrow, hheaded⟩ := hl.grow (p := (o, v)) (by rw [hserving]; rfl)
      (portion_take l.dropped l.taken ⟨i, o, v⟩)
      (fun hnil => absurd hnil hsome)
    refine ⟨?_, hheaded⟩
    show l.arrivals =
      l.acquired.flatMap (portion l.dropped (l.taken ++ [⟨i, o, v⟩])) ++
        ([] ++ rest)
    rw [hgrow, hsplit]
    simp [Baton.own]
  case finish i hserving =>
    rw [hserving] at hsplit
    exact ⟨hsplit, hl.headed⟩

theorem portioned_empty : (empty : Line ι α).Portioned where
  split := rfl
  headed := fun _ => .inl rfl

/-- Every line that the operations build is portioned. -/
theorem portioned (h : Relation.ReflTransGen Step empty l) :
    l.Portioned := by
  induction h with
  | refl => exact portioned_empty
  | tail _ hstep ih => exact hstep.portioned ih

end Portions

end Line

end HandOff
