import Sortie.Proofs.Roster.Moves
import Sortie.Mission.Run

/-!
# What a launch builds

The accepted entries of a plan become tasks in the order of the groups, so each
group holds one range of positions. A launch then activates the global tasks
and the front, and nothing else.
-/

namespace Sortie

def Entry.toTask? (e : Entry) : Option Task :=
  (Kind.ofSelector? e.selector).map (Task.ofEntry · e)

theorem Entry.phase_of_toTask? {e : Entry} {x : Task} (h : e.toTask? = some x) :
    x.phase = .inactive ∧ x.elapsed = 0 := by
  obtain ⟨kind, -, rfl⟩ := Option.map_eq_some_iff.mp h
  exact ⟨rfl, rfl⟩

namespace Plan

def accepted (p : Plan) (g : Group) : List Task := (p.get g).filterMap Entry.toTask?

def start (p : Plan) : Group → Nat
  | .global => 0
  | .sequential => (p.accepted .global).length
  | .standby => (p.accepted .global).length + (p.accepted .sequential).length

def ids (p : Plan) (g : Group) : List TaskId := List.range' (p.start g) (p.accepted g).length

def roster (p : Plan) : Roster where
  tasks := p.accepted .global ++ p.accepted .sequential ++ p.accepted .standby
  globals := p.ids .global
  standby := p.ids .standby
  stack := p.ids .sequential

variable {p : Plan} {id : Nat} {g : Group}

theorem mem_ids_iff : id ∈ p.ids g ↔ p.start g ≤ id ∧ id < p.start g + (p.accepted g).length := by
  rw [ids, List.mem_range'_1]

theorem nodup_ids : (p.ids g).Nodup := List.nodup_range'

theorem eq_of_mem_ids {h : Group} (hg : id ∈ p.ids g) (hh : id ∈ p.ids h) : g = h := by
  rw [mem_ids_iff] at hg hh
  cases g <;> cases h <;> simp only [start] at hg hh <;> first | rfl | omega

theorem size_roster :
    p.roster.size = (p.accepted .global).length + (p.accepted .sequential).length +
      (p.accepted .standby).length := by
  simp only [roster, Roster.size, List.length_append]

theorem lt_size_of_mem_ids (h : id ∈ p.ids g) : id < p.roster.size := by
  rw [mem_ids_iff] at h
  rw [size_roster]
  cases g <;> simp only [start] at h <;> omega

theorem sound_roster : p.roster.Sound where
  lt_size id h := by
    rcases h with h | h | h <;> exact lt_size_of_mem_ids h
  not_global id h hGlobal := by
    rcases h with h | h <;> exact absurd (eq_of_mem_ids h hGlobal) (by decide)

theorem phase_roster {x : Task} (h : p.roster.task? id = some x) :
    x.phase = .inactive ∧ x.elapsed = 0 := by
  have hMem : x ∈ p.roster.tasks := List.mem_of_getElem? h
  simp only [roster, accepted, List.mem_append, List.mem_filterMap] at hMem
  obtain (⟨e, -, he⟩ | ⟨e, -, he⟩) | ⟨e, -, he⟩ := hMem <;> exact Entry.phase_of_toTask? he

theorem task?_roster {i : Nat} (hi : i < (p.accepted g).length) :
    p.roster.task? (p.start g + i) = (p.accepted g)[i]? := by
  rw [Roster.task?, roster]
  cases g with
  | global =>
    rw [start, Nat.zero_add, List.append_assoc, List.getElem?_append_left hi]
  | sequential =>
    rw [start, List.append_assoc, List.getElem?_append_right (Nat.le_add_right _ _),
      Nat.add_sub_cancel_left, List.getElem?_append_left hi]
  | standby =>
    rw [start, ← List.length_append, List.getElem?_append_right (Nat.le_add_right _ _),
      Nat.add_sub_cancel_left]

theorem map_task?_ids (p : Plan) (g : Group) :
    (p.ids g).map p.roster.task? = (p.accepted g).map some := by
  apply List.ext_getElem
  · simp [ids]
  · intro i hi hi'
    rw [List.length_map] at hi'
    rw [List.getElem_map, List.getElem_map]
    simp only [ids, List.getElem_range', Nat.one_mul]
    rw [task?_roster hi', List.getElem?_eq_getElem hi']

end Plan

namespace Roster

def insertAll (g : Group) (xs : List Task) (r : Roster) : Roster :=
  xs.foldl (fun r x => r.insert g x) r

theorem insertAll_global (xs : List Task) (r : Roster) :
    r.insertAll .global xs = { r with
      tasks := r.tasks ++ xs
      globals := r.globals ++ List.range' r.size xs.length } := by
  induction xs generalizing r with
  | nil => simp [insertAll]
  | cons x xs ih =>
    refine (ih (r.insert .global x)).trans ?_
    simp [insert, size, List.range'_succ]

theorem insertAll_sequential (xs : List Task) (r : Roster) :
    r.insertAll .sequential xs = { r with
      tasks := r.tasks ++ xs
      stack := r.stack ++ List.range' r.size xs.length } := by
  induction xs generalizing r with
  | nil => simp [insertAll]
  | cons x xs ih =>
    refine (ih (r.insert .sequential x)).trans ?_
    simp [insert, size, List.range'_succ]

theorem insertAll_standby (xs : List Task) (r : Roster) :
    r.insertAll .standby xs = { r with
      tasks := r.tasks ++ xs
      standby := r.standby ++ List.range' r.size xs.length } := by
  induction xs generalizing r with
  | nil => simp [insertAll]
  | cons x xs ih =>
    refine (ih (r.insert .standby x)).trans ?_
    simp [insert, size, List.range'_succ]

end Roster

namespace Mission

variable (p : Plan) (b : Board) (m : Mission)

theorem roster_enlistAll (g : Group) (es : List Entry) :
    (m.enlistAll g es).mission.roster = m.roster.insertAll g (es.filterMap Entry.toTask?) := by
  induction es generalizing m with
  | nil => rfl
  | cons e es ih =>
    refine (ih (m.enlist g e).mission).trans ?_
    have hEnlist : (m.enlist g e).mission.roster = m.roster.enlist g e := rfl
    rw [hEnlist, Roster.enlist, List.filterMap_cons, Entry.toTask?]
    cases Kind.ofSelector? e.selector with
    | none => rfl
    | some kind => rfl

@[simp] theorem calls_enlistAll (g : Group) (es : List Entry) :
    (m.enlistAll g es).report.calls = [] := by
  induction es generalizing m with
  | nil => rfl
  | cons e es ih => exact ih (m.enlist g e).mission

theorem roster_muster : (muster p Group.all { board := b }).mission.roster = p.roster := by
  have hAccepted : ∀ g, (p.get g).filterMap Entry.toTask? = p.accepted g := fun _ => rfl
  simp only [Group.all, muster, Outcome.mission_andThen, mission_emit, mission_stay,
    roster_enlistAll, hAccepted, Roster.insertAll_global, Roster.insertAll_sequential,
    Roster.insertAll_standby]
  simp [Plan.roster, Plan.ids, Plan.start, Roster.size]

theorem calls_muster (gs : List Group) : (muster p gs m).report.calls = [] := by
  induction gs generalizing m with
  | nil => rfl
  | cons g gs ih => simp [muster, ih]

section

variable (ids : List TaskId)

theorem task?_activateAll (j : TaskId) :
    (m.activateAll ids).mission.roster.task? j =
      if j ∈ ids then (m.roster.task? j).map Task.activate else m.roster.task? j := by
  induction ids generalizing m with
  | nil => simp [activateAll]
  | cons id ids ih =>
    refine (ih (m.activate id).mission).trans ?_
    rw [activate, roster_arrange, Roster.task?_modify]
    by_cases hj : id = j
    · subst hj
      cases m.roster.task? id <;> simp [Task.activate]
    · simp [hj, Ne.symm hj]

@[simp] theorem stack_activateAll : (m.activateAll ids).mission.roster.stack = m.roster.stack := by
  induction ids generalizing m with
  | nil => rfl
  | cons id ids ih => exact ih (m.activate id).mission

theorem activateAll_akin : m.roster.Akin (m.activateAll ids).mission.roster := by
  induction ids generalizing m with
  | nil => exact .refl m.roster
  | cons id ids ih =>
    exact (Roster.Akin.of_modify (f := Task.activate) fun _ => rfl).trans (ih (m.activate id).mission)

@[simp] theorem calls_activateAll :
    (m.activateAll ids).report.calls = ids.map fun id => ⟨id, .activate⟩ := by
  induction ids generalizing m with
  | nil => rfl
  | cons id ids ih => exact congrArg (⟨id, .activate⟩ :: ·) (ih (m.activate id).mission)

end

@[simp] theorem events_enlistAll (g : Group) (es : List Entry) :
    (m.enlistAll g es).report.events = es.map Entry.event := by
  induction es generalizing m with
  | nil => rfl
  | cons e es ih => exact congrArg (e.event :: ·) (ih (m.enlist g e).mission)

theorem events_muster (gs : List Group) :
    (muster p gs m).report.events = gs.flatMap fun g => .group g :: (p.get g).map Entry.event := by
  induction gs generalizing m with
  | nil => rfl
  | cons g gs ih => simp [muster, ih]

@[simp] theorem events_activateAll (ids : List TaskId) : (m.activateAll ids).report.events = [] := by
  induction ids generalizing m with
  | nil => rfl
  | cons id ids ih => exact ih (m.activate id).mission

theorem events_launch :
    (launch p b).report.events =
      Group.all.flatMap fun g => .group g :: (p.get g).map Entry.event := by
  simp [launch, events_muster]

@[simp] theorem board_enlistAll (g : Group) (es : List Entry) :
    (m.enlistAll g es).mission.board = m.board := by
  induction es generalizing m with
  | nil => rfl
  | cons e es ih => exact ih (m.enlist g e).mission

@[simp] theorem board_muster (gs : List Group) : (muster p gs m).mission.board = m.board := by
  induction gs generalizing m with
  | nil => rfl
  | cons g gs ih => simp [muster, ih]

@[simp] theorem board_activateAll (ids : List TaskId) :
    (m.activateAll ids).mission.board = m.board := by
  induction ids generalizing m with
  | nil => rfl
  | cons id ids ih => exact ih (m.activate id).mission

theorem board_launch : (launch p b).mission.board = b := by
  simp [launch]

theorem mission_launch :
    (launch p b).mission =
      (((muster p Group.all { board := b }).mission.activateAll (p.ids .global)).mission.activateAll
        (p.ids .sequential).head?.toList).mission := by
  simp only [launch, Outcome.mission_andThen, Roster.front?, stack_activateAll, roster_muster]
  rfl

theorem launch_akin : p.roster.Akin (launch p b).mission.roster := by
  rw [mission_launch, ← roster_muster p b]
  exact (activateAll_akin _ _).trans (activateAll_akin _ _)

theorem stack_launch : (launch p b).mission.roster.stack = p.ids .sequential := by
  rw [mission_launch, stack_activateAll, stack_activateAll, roster_muster]
  rfl

theorem sound_launch : (launch p b).mission.roster.Sound := by
  apply Plan.sound_roster.of_akin (launch_akin p b)
  intro id hId
  rw [stack_launch] at hId
  exact .inr hId

theorem calls_launch :
    (launch p b).report.calls =
      (p.ids .global ++ (p.ids .sequential).head?.toList).map fun id => ⟨id, .activate⟩ := by
  simp [launch, calls_muster, roster_muster, Roster.front?, Plan.roster]

theorem task?_launch (j : TaskId) :
    (launch p b).mission.roster.task? j =
      if j ∈ p.ids .global ∨ j ∈ (p.ids .sequential).head?
      then (p.roster.task? j).map Task.activate else p.roster.task? j := by
  rw [mission_launch, task?_activateAll, task?_activateAll, roster_muster]
  by_cases hGlobal : j ∈ p.ids .global
  · have hNot : j ∉ (p.ids .sequential).head?.toList := by
      intro hHead
      exact absurd (Plan.eq_of_mem_ids hGlobal (List.mem_of_mem_head? (by simpa using hHead))) (by decide)
    simp [hGlobal, hNot]
  · simp [hGlobal]

end Mission

end Sortie
