import Sortie.Proofs.Mission.Fallback
import Sortie.Proofs.Mission.Reports

/-!
# The protocol of a tick

A tick calls the hooks of its command, then updates the global tasks, then
drives the front and perhaps retires it, then calls the idle task if nothing is
left. No task is updated that is not active, the global ones apart.
-/

namespace Sortie.Mission

open Roster

variable {m : Mission} (dt : Float32) {f : TaskId} {rest : List TaskId}

/-- The front as the command leaves it decides how it is driven; the global tasks do not interfere. -/
theorem driveFront_of_cons (hSound : m.roster.Sound)
    (hStack : m.processCommand.mission.roster.stack = f :: rest) {x : Task}
    (hTask : m.processCommand.mission.roster.task? f = some x) :
    let served := m.processCommand.mission
    let driven := x.drive dt served.board.preflight
    let front := (m.untilFront dt).mission.driveFront dt
    (driven.phase ≠ .complete →
      front.report = ⟨x.driveCalls f, []⟩ ∧ front.mission.roster.stack = f :: rest) ∧
    (driven.phase = .complete →
      front.report = ⟨x.driveCalls f ++ ⟨f, .close⟩ :: rest.head?.toList.map fun id => ⟨id, .activate⟩,
        .finished x.name :: (served.roster.names rest.head?.toList).map .next⟩ ∧
      front.mission.roster.stack = rest) := by
  intro served driven front
  have hFront : (m.untilFront dt).mission.roster.stack = f :: rest := by
    rw [stack_untilFront, hStack]
  have hNot : f ∉ m.roster.globals :=
    front_not_global hSound (by rw [front?, hStack, List.head?_cons])
  have hDriven : (m.untilFront dt).mission.roster.task? f = some x := by
    rw [task?_untilFront m dt hNot, hTask]
  have hNames : (m.untilFront dt).mission.roster.names rest.head?.toList =
      served.roster.names rest.head?.toList :=
    (updateAll_moves served dt _ fun _ hId => hId).akin.names _
  obtain ⟨hGoesOn, hEnds⟩ := (m.untilFallBack_drive dt hSound).of_cons hFront hDriven
  constructor
  · intro hPhase
    obtain ⟨hReport, hRoster⟩ := hGoesOn hPhase
    refine ⟨hReport, ?_⟩
    have hLeft := congrArg Roster.stack hRoster
    rw [stack_modify, hFront] at hLeft
    exact hLeft
  · intro hPhase
    obtain ⟨hLeft, hReport⟩ := hEnds hPhase
    rw [hNames] at hReport
    exact ⟨hReport, hLeft⟩

theorem driveFront_of_nil (hSound : m.roster.Sound)
    (hStack : m.processCommand.mission.roster.stack = []) :
    ((m.untilFront dt).mission.driveFront dt).report = ∅ ∧
      (m.untilFallBack dt).mission.roster.stack = [] := by
  have hFront : (m.untilFront dt).mission.roster.stack = [] := by
    rw [stack_untilFront, hStack]
  obtain ⟨hReport, hRoster⟩ := (m.untilFallBack_drive dt hSound).of_nil hFront
  exact ⟨hReport, hRoster ▸ hFront⟩

/--
The calls of a tick are those of its command, one update of each global task in
the order of the plan, those of the front and those of the fallback. The front
is activated first if it is inactive; it is closed exactly if it then answers
that it is complete, which is announced, and the next task is activated and
announced. The idle task is activated exactly if nothing is left of the stack
and the plan provides it. An update of a task that is not global finds it active,
and the calls account for all that happens to the tasks.
-/
theorem hook_protocol (p : Plan) (b : Board) (ops : List Op) (dt : Float32) :
    let m := after p b ops
    let served := m.processCommand.mission
    let o := m.tick dt
    let announced := (o.report.events.filter (·.category = .mission)).map Event.message
    (p.ids .global).map (fun id => (m.roster.task? id).map Task.profile) =
      (p.accepted .global).map (fun x => some x.profile) ∧
    (∀ id ∈ served.roster.stack, ∃ x, served.roster.task? id = some x) ∧
    (∃ (K F I : List Call) (left : List TaskId),
      o.report.calls = K ++ ((p.ids .global).map fun id => ⟨id, .update⟩) ++ F ++ I ∧
      (K = [] ∧ served.roster = m.roster ∨
        (∃ id ∈ m.roster.standby, K = [⟨id, .activate⟩] ∧ served.roster = m.roster.raise id) ∨
        ∃ id rest, m.roster.stack = id :: rest ∧ K = [⟨id, .close⟩] ∧ served.roster = m.roster.pop) ∧
      (served.roster.stack = [] →
        F = [] ∧ left = [] ∧ announced = [] ∧ o.mission.board.current = m.board.current) ∧
      (∀ f rest, served.roster.stack = f :: rest → ∃ x, served.roster.task? f = some x ∧
        f ∉ p.ids .global ∧ o.mission.board.current = x.name ∧
        let driven := (if x.phase = .inactive then x.activate else x).update dt served.board.preflight
        let calls : List Call :=
          (if x.phase = .inactive then [⟨f, .activate⟩] else []) ++ [⟨f, .update⟩, ⟨f, .isComplete⟩]
        if driven.isComplete then
          F = calls ++ ⟨f, .close⟩ :: (rest.head?.toList.map fun id => ⟨id, .activate⟩) ∧ left = rest ∧
          announced = ("task complete: " ++ x.name) ::
            (served.roster.names rest.head?.toList).map ("next task: " ++ ·)
        else F = calls ∧ left = f :: rest ∧ announced = []) ∧
      (left = [] → p.HasIdle → ∃ id, p.roster.IsFirst (.name "idle") id ∧ I = [⟨id, .activate⟩]) ∧
      (left ≠ [] ∨ ¬ p.HasIdle → I = []) ∧
      o.mission.roster.stack = I.map Call.id ++ left) ∧
    (∀ before id after, o.report.calls = before ++ ⟨id, .update⟩ :: after → id ∉ p.ids .global →
      ∃ x, (replay dt served.board.preflight before m.roster.tasks)[id]? = some x ∧
        x.phase = .active) ∧
    o.mission.roster.tasks = replay dt served.board.preflight o.report.calls m.roster.tasks := by
  intro m served o announced
  have hSound : m.roster.Sound := sound_after p b ops
  have hGlobals : m.roster.globals = p.ids .global := (after_akin p b ops).globals
  have hFind := (untilFallBack_akin p b ops dt).find? (.name Order.idleName)
  have hAnnounced : announced =
      ((m.untilFront dt).mission.driveFront dt).report.events.map Event.message :=
    congrArg (List.map Event.message) (announced_tick dt hSound)
  have hCurrent : o.mission.board.current = served.frontName := by
    rw [show o = m.tick dt from rfl, board_tick]
    rfl
  have hServed : served.roster.Sound := m.processCommand_turn.moves.sound hSound
  refine ⟨profiles_after p b ops .global, fun id hId => hServed.exists_task? hId,
    ⟨m.processCommand.report.calls, ((m.untilFront dt).mission.driveFront dt).report.calls,
      (m.untilFallBack dt).mission.fallBackPushes.map fun id => ⟨id, .activate⟩,
      (m.untilFallBack dt).mission.roster.stack,
      ?_, m.processCommand_turn.calls_cases, ?_, ?_, ?_, ?_, ?_⟩,
    ?_, tasks_tick dt hSound⟩
  · rw [← hGlobals]
    exact m.calls_tick dt
  · intro hStack
    obtain ⟨hReport, hLeft⟩ := driveFront_of_nil dt hSound hStack
    refine ⟨by rw [hReport]; rfl, hLeft, by rw [hAnnounced, hReport]; rfl, ?_⟩
    rw [hCurrent, frontName, frontTask?_eq_none hStack]
    exact m.current_processCommand
  · intro f rest hStack
    have hFront : served.roster.front? = some f := by rw [front?, hStack, List.head?_cons]
    obtain ⟨x, hTask⟩ := hServed.exists_task? (List.mem_of_mem_head? hFront)
    obtain ⟨hGoesOn, hEnds⟩ := driveFront_of_cons dt hSound hStack hTask
    refine ⟨x, hTask, hGlobals ▸ front_not_global hSound hFront, ?_, ?_⟩
    · rw [hCurrent, frontName, frontTask?, hFront, Option.bind_some, hTask, Option.map_some,
        Option.getD_some]
    · intro driven calls
      by_cases hPhase : driven.phase = .complete
      · obtain ⟨hReport, hLeft⟩ := hEnds hPhase
        rw [if_pos (Task.isComplete_iff.mpr hPhase), hAnnounced, hReport]
        refine ⟨rfl, hLeft, ?_⟩
        rw [List.map_cons, List.map_map]
        rfl
      · obtain ⟨hReport, hLeft⟩ := hGoesOn hPhase
        rw [if_neg (mt Task.isComplete_iff.mp hPhase), hAnnounced, hReport]
        exact ⟨rfl, hLeft, rfl⟩
  · intro hLeft hIdle
    obtain ⟨id, hId⟩ := hIdle.exists_find?
    refine ⟨id, (find?_eq_some_iff.mp hId).2, ?_⟩
    rw [fallBackPushes, if_pos hLeft, hFind, hId]
    rfl
  · rintro (hLeft | hIdle)
    · rw [fallBackPushes, if_neg hLeft]
      rfl
    · rw [fallBackPushes, hFind, Plan.find?_idle_eq_none_iff.mpr hIdle]
      split <;> rfl
  · rw [List.map_map]
    exact ((m.untilFallBack dt).mission.stack_fallBack).trans (by simp [Function.comp_def])
  · rw [← hGlobals]
    exact timely_tick dt hSound (settled_after p b ops)

end Sortie.Mission
