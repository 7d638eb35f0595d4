import Mathlib.Data.List.Forall2
import Sortie.Proofs.Mission.Launch

/-!
# What a launch leaves behind

An entry is accepted when its selector is the word of a kind. A launch makes one task
of each accepted entry and hands out the positions group by group, so that entries that
are left out shift all that follow them, the first front included. The report tells of
every entry, also of those that are left out.
-/

namespace Sortie

namespace Kind

def selectors : List String := all.map selector

theorem ofSelector?_eq_none_iff {s : String} : ofSelector? s = none ↔ s ∉ selectors := by
  simp [ofSelector?, selectors]

theorem exists_ofSelector? {s : String} (h : s ∈ selectors) : ∃ k, ofSelector? s = some k := by
  rw [← Option.isSome_iff_exists, Option.isSome_iff_ne_none]
  exact fun hNone => ofSelector?_eq_none_iff.mp hNone h

end Kind

namespace Entry

def isAccepted (e : Entry) : Bool := e.selector ∈ Kind.selectors

def notice (e : Entry) : Category × String :=
  if e.isAccepted then (.init, "make_task(): " ++ e.name ++ " (" ++ e.selector ++ ")")
  else (.fault, "unknown task name: " ++ e.selector)

theorem toTask?_eq_none {e : Entry} (h : e.isAccepted = false) : e.toTask? = none := by
  rw [toTask?, Kind.ofSelector?_eq_none_iff.mpr (of_decide_eq_false h), Option.map_none]

end Entry

/-- A task that is what an entry declares; the name selects its kind where no word for it is given. -/
structure Task.Embodies (x : Task) (e : Entry) : Prop where
  kind : e.task = some x.profile.kind.selector ∨ e.task = none ∧ e.name = x.profile.kind.selector
  name : x.name = e.name
  nickname : e.nickname = some x.nickname ∨ e.nickname = none ∧ x.nickname = ""
  duration : ∀ d, x.profile.duration = some d ↔
    ∃ v, ("duration_sec", .number v) ∈ e.params.entries ∧ d = v.toFloat32

namespace Entry

theorem exists_toTask? {e : Entry} (h : e.isAccepted = true) :
    ∃ x, e.toTask? = some x ∧ x.Embodies e := by
  obtain ⟨kind, hKind⟩ := Kind.exists_ofSelector? (of_decide_eq_true h)
  refine ⟨.ofEntry kind e, by rw [toTask?, hKind, Option.map_some], ?_⟩
  exact ⟨selector_eq_iff.mp (Kind.ofSelector?_eq_some_iff.mp hKind).symm, rfl, nick_eq_iff.mp rfl,
    fun _ => Params.number32?_eq_some_iff⟩

theorem notice_event (e : Entry) : (e.event.category, e.event.message) = e.notice := by
  rw [event, notice]
  cases hAccepted : e.isAccepted with
  | false =>
    rw [Kind.ofSelector?_eq_none_iff.mpr (of_decide_eq_false hAccepted)]
    rfl
  | true =>
    obtain ⟨kind, hKind⟩ := Kind.exists_ofSelector? (of_decide_eq_true hAccepted)
    rw [hKind, ← Kind.ofSelector?_eq_some_iff.mp hKind]
    rfl

/-- Left out are the entries that are not accepted, and no others. -/
theorem embodied_filterMap (es : List Entry) :
    List.Forall₂ Task.Embodies (es.filterMap toTask?) (es.filter isAccepted) := by
  induction es with
  | nil => exact .nil
  | cons e es ih =>
    rw [List.filterMap_cons, List.filter_cons]
    cases hAccepted : e.isAccepted with
    | false =>
      rw [toTask?_eq_none hAccepted]
      exact ih
    | true =>
      obtain ⟨x, hTask, hEmbodies⟩ := exists_toTask? hAccepted
      rw [hTask]
      exact .cons hEmbodies ih

end Entry

/-- What a task is made of is in its profile. -/
theorem Task.Embodies.of_profile {x y : Task} {e : Entry} (h : x.Embodies e)
    (hProfile : y.profile = x.profile) : y.Embodies e where
  kind := hProfile ▸ h.kind
  name := (congrArg Profile.name hProfile).trans h.name
  nickname := by
    rw [Task.nickname, hProfile]
    exact h.nickname
  duration := hProfile ▸ h.duration

namespace Roster

variable {r s : Roster} {es : List Entry}

theorem Akin.forall₂_embodies (h : Akin r s) (hTasks : List.Forall₂ Task.Embodies r.tasks es) :
    List.Forall₂ Task.Embodies s.tasks es := by
  obtain ⟨hLength, hEach⟩ := List.forall₂_iff_get.mp hTasks
  refine List.forall₂_iff_get.mpr ⟨h.size.trans hLength, fun i hi hi' => ?_⟩
  have hr : i < r.tasks.length := hLength ▸ hi'
  refine (hEach i hr hi').of_profile ?_
  have hProfile := h.profile i
  rw [task?, task?, List.getElem?_eq_getElem hi, List.getElem?_eq_getElem hr] at hProfile
  exact Option.some.inj hProfile

end Roster

namespace Plan

variable (p : Plan)

theorem embodied_roster :
    List.Forall₂ Task.Embodies p.roster.tasks
      ((p.globals ++ p.sequence ++ p.standby).filter Entry.isAccepted) := by
  have hTasks : p.roster.tasks = (p.globals ++ p.sequence ++ p.standby).filterMap Entry.toTask? := by
    rw [List.filterMap_append, List.filterMap_append]
    rfl
  rw [hTasks]
  exact Entry.embodied_filterMap _

theorem length_accepted (g : Group) :
    (p.accepted g).length = (p.get g).countP Entry.isAccepted := by
  rw [accepted, (Entry.embodied_filterMap (p.get g)).length_eq, List.countP_eq_length_filter]

theorem ids_eq_range' (g : Group) :
    p.ids g = List.range' (p.start g) ((p.get g).countP Entry.isAccepted) := by
  rw [ids, length_accepted]

/-- The groups share out all positions. -/
theorem ids_append :
    p.ids .global ++ p.ids .sequential ++ p.ids .standby = List.range p.roster.size := by
  rw [size_roster, List.range_eq_range', ← List.range'_append_1, ← List.range'_append_1,
    Nat.zero_add, Nat.zero_add]
  rfl

end Plan

namespace Mission

variable {p : Plan} {b : Board}

theorem globals_launch : (launch p b).mission.roster.globals = p.ids .global :=
  (launch_akin p b).globals

/-- Only the global tasks and the front are active, and for no time yet. -/
theorem phase_launch {id : TaskId} {x : Task} (h : (launch p b).mission.roster.task? id = some x) :
    x.elapsed = 0 ∧ x.phase =
      if id ∈ p.ids .global ∨ id ∈ (p.ids .sequential).head? then .active else .inactive := by
  rw [task?_launch] at h
  by_cases hActive : id ∈ p.ids .global ∨ id ∈ (p.ids .sequential).head?
  · rw [if_pos hActive] at h ⊢
    obtain ⟨y, -, rfl⟩ := Option.map_eq_some_iff.mp h
    exact ⟨rfl, rfl⟩
  · rw [if_neg hActive] at h ⊢
    exact (Plan.phase_roster h).symm

theorem notices_launch :
    (launch p b).report.events.map (fun e => (e.category, e.message)) =
      Group.all.flatMap fun g => (.init, g.label ++ ":") :: (p.get g).map Entry.notice := by
  rw [events_launch, List.map_flatMap]
  refine congrArg (List.flatMap · Group.all) (funext fun g => ?_)
  rw [List.map_cons, List.map_map]
  exact congrArg _ (List.map_congr_left fun e _ => e.notice_event)

/--
A launch makes one task of each accepted entry, in the order of the plan. The global
tasks, the stack and the standby catalog take three ranges of positions in a row. The
global tasks and the front are activated, each once, and nothing else happens to the
tasks or to the board. The report names each group and tells of each of its entries.
-/
theorem launch_builds (p : Plan) (b : Board) :
    let o := launch p b
    let r := o.mission.roster
    let n := fun g => (p.get g).countP Entry.isAccepted
    (Kind.selectors.Nodup ∧ Kind.selectors.length = 18) ∧
    List.Forall₂ Task.Embodies r.tasks
      ((p.globals ++ p.sequence ++ p.standby).filter Entry.isAccepted) ∧
    r.globals = List.range' 0 (n .global) ∧
    r.stack = List.range' (n .global) (n .sequential) ∧
    r.standby = List.range' (n .global + n .sequential) (n .standby) ∧
    r.globals ++ r.stack ++ r.standby = List.range r.size ∧
    (∀ id x, r.task? id = some x → x.elapsed = 0 ∧
      x.phase = if id ∈ r.globals ∨ id ∈ r.stack.head? then .active else .inactive) ∧
    o.report.calls = (r.globals ++ r.stack.head?.toList).map (fun id => ⟨id, .activate⟩) ∧
    o.mission.board = b ∧
    o.report.events.map (fun e => (e.category, e.message)) =
      Group.all.flatMap fun g => (.init, g.label ++ ":") :: (p.get g).map Entry.notice := by
  intro o r n
  have hGlobals : r.globals = p.ids .global := globals_launch
  have hStack : r.stack = p.ids .sequential := stack_launch p b
  have hStandby : r.standby = p.ids .standby := (launch_akin p b).standby
  have hStart : p.start .sequential = n .global ∧ p.start .standby = n .global + n .sequential := by
    rw [Plan.start, Plan.start, p.length_accepted, p.length_accepted]
    exact ⟨rfl, rfl⟩
  refine ⟨⟨by decide, rfl⟩, (launch_akin p b).forall₂_embodies p.embodied_roster, ?_, ?_, ?_, ?_,
    fun id x hx => ?_, ?_, board_launch p b, notices_launch⟩
  · rw [hGlobals, p.ids_eq_range', Plan.start]
  · rw [hStack, p.ids_eq_range', hStart.1]
  · rw [hStandby, p.ids_eq_range', hStart.2]
  · rw [hGlobals, hStack, hStandby, p.ids_append, (launch_akin p b).size]
  · rw [hGlobals, hStack]
    exact phase_launch hx
  · rw [hGlobals, hStack]
    exact calls_launch p b

/-- Where the entry in front is left out, the next one is the front. -/
example : (launch { sequence := [{ name := "warp" }, { name := "route" }] } {}).mission.roster.tasks.map
    (fun x => (x.name, x.phase)) = [("route", .active)] := by
  decide +kernel

end Mission

end Sortie
