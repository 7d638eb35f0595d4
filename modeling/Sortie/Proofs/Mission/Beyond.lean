import Sortie.Proofs.Mission.History
import Sortie.Proofs.Mission.Postings
import Sortie.Proofs.Roster.Beyond

/-!
# A mission without its global tasks

A mission whose global tasks are left out goes on exactly as before: the same
requests, ticks and events, and the same hooks of the tasks that are left.
-/

namespace Sortie

/-- A call once the first `k` tasks are left out; a call of one of these is lost. -/
def Call.beyond? (k : Nat) (c : Call) : Option Call :=
  if k ≤ c.id then some ⟨c.id - k, c.hook⟩ else none

def Report.beyond (k : Nat) (a : Report) : Report where
  calls := a.calls.filterMap (·.beyond? k)
  events := a.events

def Mission.beyond (k : Nat) (m : Mission) : Mission := m.arrange (·.beyond k)

def Outcome.beyond (k : Nat) (o : Outcome) : Outcome := ⟨o.mission.beyond k, o.report.beyond k⟩

variable {k id : Nat}

namespace Report

theorem beyond_append (a b : Report) : (a ++ b).beyond k = a.beyond k ++ b.beyond k := by
  ext1
  · exact List.filterMap_append
  · rfl

theorem beyond_call (hId : k ≤ id) (hook : Hook) : (call id hook).beyond k = call (id - k) hook := by
  simp [beyond, call, Call.beyond?, hId]

theorem beyond_call_of_lt (hId : id < k) (hook : Hook) : (call id hook).beyond k = ∅ := by
  have hNot : ¬ k ≤ id := by omega
  simp [beyond, call, Call.beyond?, hNot]
  rfl

end Report

theorem Outcome.beyond_andThen {o u : Outcome} {f g : Mission → Outcome} (ho : o.beyond k = u)
    (h : (f o.mission).beyond k = g (o.mission.beyond k)) : (o.andThen f).beyond k = u.andThen g := by
  subst ho
  have hMission : (f o.mission).mission.beyond k = (g (o.mission.beyond k)).mission :=
    congrArg mission h
  have hReport : (f o.mission).report.beyond k = (g (o.mission.beyond k)).report :=
    congrArg report h
  rw [beyond, mission_andThen, report_andThen, Report.beyond_append, hMission, hReport]
  rfl

theorem Order.publish_beyond (o : Order) (w : Whereabouts) : o.publish (w.beyond k) = o.publish w := by
  funext b
  cases o <;> cases w <;> rfl

namespace Mission

variable (m : Mission)

@[simp] theorem roster_beyond : (m.beyond k).roster = m.roster.beyond k := rfl

@[simp] theorem board_beyond : (m.beyond k).board = m.board := rfl

section

variable {m} (dt : Float32)

theorem activate_beyond (hId : k ≤ id) :
    (m.activate id).beyond k = (m.beyond k).activate (id - k) := by
  simp only [Outcome.beyond, activate, beyond, arrange, Report.beyond_call hId,
    Roster.beyond_modify hId]

theorem update_beyond (hId : k ≤ id) :
    (m.update dt id).beyond k = (m.beyond k).update dt (id - k) := by
  simp only [Outcome.beyond, update, beyond, arrange, Report.beyond_call hId,
    Roster.beyond_modify hId]

theorem update_beyond_of_lt (hId : id < k) : (m.update dt id).beyond k = (m.beyond k).stay := by
  simp only [Outcome.beyond, update, beyond, arrange, Report.beyond_call_of_lt hId,
    Roster.beyond_modify_of_lt hId, stay]

theorem wake_beyond (hId : k ≤ id) : (m.wake id).beyond k = (m.beyond k).wake (id - k) := by
  rw [wake, wake, roster_beyond, Roster.task?_beyond_sub hId]
  split
  · exact activate_beyond hId
  · rfl

end

section

variable {m} (h : m.roster.Apart k)

include h

theorem pop_beyond : m.pop.beyond k = (m.beyond k).pop := by
  rw [pop, pop, roster_beyond, Roster.stack_beyond]
  cases hStack : m.roster.stack with
  | nil => rfl
  | cons id rest =>
    have hId : k ≤ id := h.stack id (by simp [hStack])
    simp only [List.map_cons, Outcome.beyond, beyond, arrange, Report.beyond_call hId,
      Roster.beyond_pop h]

theorem engage_beyond (t : Target) : (m.engage t).beyond k = (m.beyond k).engage t := by
  rw [engage, engage, roster_beyond, Roster.seek_beyond h]
  cases hSeek : m.roster.seek t with
  | atFront | nowhere => rfl
  | standby id =>
    exact activate_beyond (m := m.arrange (·.push id))
      (h.standby id (Roster.mem_standby_of_seek hSeek))

theorem perform_beyond (req : Request) : (m.perform req).beyond k = (m.beyond k).perform req := by
  cases req with
  | order o =>
    rw [perform, perform, order, order, roster_beyond, Roster.seek_beyond h, Order.publish_beyond]
    exact engage_beyond (m := m.write _) h o.target
  | resume =>
    rw [perform, perform, resume, resume, roster_beyond, Roster.frontTask?_beyond h]
    split
    · exact pop_beyond h
    · rfl
  | pop => exact pop_beyond h

theorem processCommand_beyond : m.processCommand.beyond k = (m.beyond k).processCommand := by
  rw [processCommand, processCommand, board_beyond]
  split
  · rfl
  · rw [execute, execute]
    cases Command.parse m.board.request with
    | error e => rfl
    | ok c =>
      have hPerform := perform_beyond (m := m.write Board.clearRequest) h c.request
      exact Outcome.beyond_andThen (Outcome.beyond_andThen rfl hPerform) rfl

end

section

variable {m} (dt : Float32)

theorem updateAll_beyond {ids : List TaskId} (hIds : ∀ id ∈ ids, id < k) :
    (m.updateAll dt ids).beyond k = (m.beyond k).stay := by
  induction ids generalizing m with
  | nil => rfl
  | cons id ids ih =>
    have hRest := ih (m := (m.update dt id).mission) fun j hj => hIds j (List.mem_cons_of_mem _ hj)
    have hUpdate := update_beyond_of_lt (m := m) dt (hIds id List.mem_cons_self)
    exact Outcome.beyond_andThen (g := stay) hUpdate hRest

variable (h : m.roster.Apart k)

include h

theorem updateGlobals_beyond : (m.updateGlobals dt).beyond k = (m.beyond k).updateGlobals dt :=
  updateAll_beyond dt h.globals

theorem handOver_beyond : m.handOver.beyond k = (m.beyond k).handOver := by
  rw [handOver, handOver, roster_beyond, Roster.front?_beyond]
  cases hFront : m.roster.front? with
  | none => rfl
  | some id =>
    have hId : k ≤ id := h.stack id (List.mem_of_mem_head? hFront)
    refine Outcome.beyond_andThen (activate_beyond hId) ?_
    rw [roster_beyond, Roster.task?_beyond_sub hId]
    cases (m.activate id).mission.roster.task? id <;> rfl

theorem retireFront_beyond (hId : k ≤ id) :
    (m.retireFront id).beyond k = (m.beyond k).retireFront (id - k) := by
  have hAsk : (Outcome.mk m (.call id .isComplete)).beyond k =
      ⟨m.beyond k, .call (id - k) .isComplete⟩ := by
    rw [Outcome.beyond, Report.beyond_call hId]
  refine Outcome.beyond_andThen hAsk ?_
  rw [roster_beyond, Roster.task?_beyond_sub hId]
  cases m.roster.task? id with
  | none => rfl
  | some x =>
    dsimp only
    split
    · have hPop : (m.emit (.finished x.name)).beyond k = (m.beyond k).emit (.finished x.name) := rfl
      exact Outcome.beyond_andThen (Outcome.beyond_andThen (f := pop) hPop (pop_beyond h))
        (handOver_beyond (h.moves m.pop_turn.moves))
    · rfl

theorem driveFront_beyond : (m.driveFront dt).beyond k = (m.beyond k).driveFront dt := by
  rw [driveFront, driveFront, roster_beyond, Roster.front?_beyond]
  cases hFront : m.roster.front? with
  | none => rfl
  | some id =>
    have hId : k ≤ id := h.stack id (List.mem_of_mem_head? hFront)
    dsimp only [Option.map_some]
    rw [Roster.task?_beyond_sub hId, board_beyond]
    -- the name that is posted is read off the same task, or off the same slot
    generalize ((m.roster.task? id).map Task.name).getD m.board.current = name
    have hWake := wake_beyond (m := m.write (·.setCurrent name)) hId
    have hWoken : ((m.write (·.setCurrent name)).wake id).mission.roster.Apart k := by
      rw [wake]
      split
      · exact h.modify id Task.activate
      · exact h
    exact Outcome.beyond_andThen (Outcome.beyond_andThen hWake (update_beyond dt hId))
      (retireFront_beyond (hWoken.modify id _) hId)

theorem fallBack_beyond : m.fallBack.beyond k = (m.beyond k).fallBack := by
  have hStack : (m.beyond k).roster.stack = [] ↔ m.roster.stack = [] := List.map_eq_nil_iff
  rw [fallBack, fallBack]
  by_cases hEmpty : m.roster.stack = []
  · rw [if_pos hEmpty, if_pos (hStack.mpr hEmpty)]
    exact perform_beyond h (.order .idle)
  · rw [if_neg hEmpty, if_neg (mt hStack.mp hEmpty)]
    rfl

theorem tick_beyond (hSound : m.roster.Sound) : (m.tick dt).beyond k = (m.beyond k).tick dt := by
  have hCommand := h.moves m.processCommand_turn.moves
  have hUntilFront := h.moves (m.untilFront_moves dt)
  have hUntilFallBack := h.moves (m.untilFallBack_moves dt hSound)
  exact Outcome.beyond_andThen (Outcome.beyond_andThen (Outcome.beyond_andThen
    (processCommand_beyond h) (updateGlobals_beyond dt hCommand)) (driveFront_beyond dt hUntilFront))
    (fallBack_beyond hUntilFallBack)

end

section

variable {m}

/-- What an operation does apart from the global tasks, it does without them. -/
theorem apply_beyond (h : m.roster.Apart k) (hSound : m.roster.Sound) (op : Op) :
    (m.apply op).beyond k = (m.beyond k).apply op := by
  cases op with
  | submit | position | wind | preflight => rfl
  | process => exact processCommand_beyond h
  | request req => exact perform_beyond h req
  | tick dt => exact tick_beyond dt h hSound

theorem run_beyond (h : m.roster.Apart k) (hSound : m.roster.Sound) (ops : List Op) :
    (m.run ops).beyond k = (m.beyond k).run ops := by
  induction ops generalizing m with
  | nil => rfl
  | cons op ops ih =>
    have hMoves := apply_moves hSound op
    have hOp := apply_beyond h hSound op
    exact Outcome.beyond_andThen hOp (ih (h.moves hMoves) (hMoves.sound hSound))

end

/-! ## The launch -/

theorem activateAll_beyond_of_lt {ids : List TaskId} (hIds : ∀ id ∈ ids, id < k) :
    (m.activateAll ids).mission.beyond k = m.beyond k := by
  induction ids generalizing m with
  | nil => rfl
  | cons id ids ih =>
    have hRest := ih (m.activate id).mission fun j hj => hIds j (List.mem_cons_of_mem _ hj)
    refine hRest.trans ?_
    simp only [activate, beyond, arrange, Roster.beyond_modify_of_lt (hIds id List.mem_cons_self)]

theorem activateAll_beyond {ids : List TaskId} (hIds : ∀ id ∈ ids, k ≤ id) :
    (m.activateAll ids).beyond k = (m.beyond k).activateAll (ids.map (· - k)) := by
  induction ids generalizing m with
  | nil => rfl
  | cons id ids ih =>
    have hRest := ih (m.activate id).mission fun j hj => hIds j (List.mem_cons_of_mem _ hj)
    exact Outcome.beyond_andThen (activate_beyond (hIds id List.mem_cons_self)) hRest

end Mission

namespace Plan

def offset (p : Plan) : Nat := (p.accepted .global).length

def withoutGlobals (p : Plan) : Plan := { p with globals := [] }

variable (p : Plan)

theorem ids_global : p.ids .global = List.range p.offset := List.range_eq_range'.symm

section

variable {g : Group} (hg : g ≠ .global)

include hg

theorem offset_le_start : p.offset ≤ p.start g := by
  cases g with
  | global => exact absurd rfl hg
  | sequential => exact Nat.le_refl p.offset
  | standby => exact Nat.le_add_right p.offset _

theorem offset_le_of_mem_ids {id : TaskId} (hId : id ∈ p.ids g) : p.offset ≤ id :=
  (p.offset_le_start hg).trans (mem_ids_iff.mp hId).1

theorem map_sub_ids : (p.ids g).map (· - p.offset) = p.withoutGlobals.ids g := by
  have hStart : p.start g - p.offset = p.withoutGlobals.start g := by
    cases g with
    | global => exact absurd rfl hg
    | sequential => exact Nat.sub_self p.offset
    | standby => exact (Nat.add_sub_cancel_left p.offset _).trans (Nat.zero_add _).symm
  have hAccepted : p.accepted g = p.withoutGlobals.accepted g := by
    cases g with
    | global => exact absurd rfl hg
    | sequential | standby => rfl
  rw [ids, List.map_sub_range' (p.offset_le_start hg), hStart, hAccepted]
  rfl

end

theorem roster_beyond : p.roster.beyond p.offset = p.withoutGlobals.roster := by
  have hTasks : p.roster.tasks.drop p.offset = p.withoutGlobals.roster.tasks := by
    rw [roster, List.append_assoc]
    exact List.drop_left
  have hStandby : p.roster.standby.map (· - p.offset) = p.withoutGlobals.roster.standby :=
    p.map_sub_ids (by simp)
  have hStack : p.roster.stack.map (· - p.offset) = p.withoutGlobals.roster.stack :=
    p.map_sub_ids (by simp)
  rw [Roster.beyond, hTasks, hStandby, hStack]
  rfl

theorem apart_roster : p.roster.Apart p.offset where
  globals id hId := by
    rw [roster, ids_global] at hId
    exact List.mem_range.mp hId
  standby id hId := p.offset_le_of_mem_ids (by simp) hId
  stack id hId := p.offset_le_of_mem_ids (by simp) hId

end Plan

namespace Mission

variable (p : Plan) (b : Board)

theorem mission_muster : (muster p Group.all { board := b }).mission = ⟨p.roster, b⟩ := by
  rw [← roster_muster p b]
  exact congrArg (Mission.mk _) (board_muster p { board := b } Group.all)

theorem apart_launch : (launch p b).mission.roster.Apart p.offset := by
  refine p.apart_roster.of_akin (launch_akin p b) fun id hId => ?_
  rw [stack_launch] at hId
  exact .inr hId

theorem launch_beyond : (launch p b).mission.beyond p.offset = (launch p.withoutGlobals b).mission := by
  have hFront : ((p.ids .sequential).head?.toList).map (· - p.offset) =
      (p.withoutGlobals.ids .sequential).head?.toList := by
    rw [← p.map_sub_ids (by simp), List.head?_map]
    cases (p.ids .sequential).head? <;> rfl
  have hGlobal : ∀ id ∈ p.ids .global, id < p.offset := p.apart_roster.globals
  have hSequential : ∀ id ∈ (p.ids .sequential).head?.toList, p.offset ≤ id := by
    intro id hId
    exact p.offset_le_of_mem_ids (by simp) (List.mem_of_mem_head? (Option.mem_toList.mp hId))
  have hMission : (Mission.mk p.roster b).beyond p.offset = ⟨p.withoutGlobals.roster, b⟩ := by
    rw [beyond, arrange, p.roster_beyond]
  have hActivated := congrArg Outcome.mission
    (activateAll_beyond ((Mission.mk p.roster b).activateAll (p.ids .global)).mission hSequential)
  rw [activateAll_beyond_of_lt _ hGlobal, hFront, hMission] at hActivated
  -- of what a launch activates only the front is left
  rw [mission_launch, mission_launch, mission_muster, mission_muster]
  exact hActivated

/-- A mission goes on as the mission of the same plan without its global entries does. -/
theorem run_launch_beyond (ops : List Op) :
    ((launch p b).mission.run ops).beyond p.offset = (launch p.withoutGlobals b).mission.run ops := by
  rw [run_beyond (apart_launch p b) (sound_launch p b), launch_beyond]

end Mission

end Sortie
