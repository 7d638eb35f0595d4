import Sortie.Proofs.Roster.Replay
import Sortie.Proofs.Mission.Lifecycle
import Sortie.Proofs.Mission.Postings

/-!
# What a tick reports

The calls of a tick come from its stages, in their order, and account for all
that happens to the tasks. The front is the one task beyond the global ones that
is updated, and it is active then.
-/

namespace Sortie

namespace Mission

open Roster

variable (m : Mission) (dt : Float32)

/-! ## Calls -/

theorem calls_tick :
    (m.tick dt).report.calls =
      m.processCommand.report.calls ++ (m.roster.globals.map fun id => ⟨id, .update⟩) ++
        ((m.untilFront dt).mission.driveFront dt).report.calls ++
        (m.untilFallBack dt).mission.fallBackPushes.map fun id => ⟨id, .activate⟩ := by
  rw [tick_eq, Outcome.report_andThen, Report.calls_append, calls_fallBack, untilFallBack,
    Outcome.report_andThen, Report.calls_append, calls_untilFront]

theorem tasks_updateAll (ids : List TaskId) :
    (m.updateAll dt ids).mission.roster.tasks =
      replay dt m.board.preflight (ids.map fun id => ⟨id, .update⟩) m.roster.tasks := by
  induction ids generalizing m with
  | nil => rfl
  | cons id ids ih => exact ih (m.update dt id).mission

theorem tasks_untilFront :
    (m.untilFront dt).mission.roster.tasks =
      replay dt m.processCommand.mission.board.preflight (m.untilFront dt).report.calls
        m.roster.tasks := by
  have hTurn := m.processCommand_turn
  rw [calls_untilFront, replay_append, ← hTurn.tasks_eq, ← hTurn.moves.akin.globals]
  exact tasks_updateAll _ dt _

variable {m}

theorem tasks_untilFallBack (hSound : m.roster.Sound) :
    (m.untilFallBack dt).mission.roster.tasks =
      replay dt m.processCommand.mission.board.preflight (m.untilFallBack dt).report.calls
        m.roster.tasks := by
  rw [(m.untilFallBack_drive dt hSound).tasks_eq, tasks_untilFront, ← replay_append]
  rfl

theorem tasks_tick (hSound : m.roster.Sound) :
    (m.tick dt).mission.roster.tasks =
      replay dt m.processCommand.mission.board.preflight (m.tick dt).report.calls m.roster.tasks := by
  have hTurn := (m.untilFallBack dt).mission.fallBack_turn
  rw [tick_eq, Outcome.mission_andThen, Outcome.report_andThen, Report.calls_append, replay_append,
    ← tasks_untilFallBack dt hSound]
  exact hTurn.tasks_eq dt _

theorem timely_tick (hSound : m.roster.Sound) (hSettled : m.roster.Settled) :
    Timely dt m.processCommand.mission.board.preflight m.roster.globals (m.tick dt).report.calls
      m.roster.tasks := by
  have hUntilFront : Timely dt m.processCommand.mission.board.preflight m.roster.globals
      (m.untilFront dt).report.calls m.roster.tasks := by
    apply timely_of_exempt
    intro c hc hHook
    rw [calls_untilFront] at hc
    rcases List.mem_append.mp hc with hc | hc
    · exact absurd hHook (m.processCommand_turn.hook_ne_update c hc)
    · obtain ⟨id, hId, rfl⟩ := List.mem_map.mp hc
      exact hId
  have hDrive := m.untilFallBack_drive dt hSound
  have hMoves := m.untilFront_moves dt
  -- no entry of the stack is complete when the front is driven, so an update finds it active
  have hFront : Timely dt m.processCommand.mission.board.preflight m.roster.globals
      ((m.untilFront dt).mission.driveFront dt).report.calls (m.untilFront dt).mission.roster.tasks := by
    apply hDrive.timely
    intro id x hId hTask
    have hMem : id ∈ (m.untilFront dt).mission.roster.stack := List.mem_of_mem_head? hId
    exact (settled_untilFront hSettled id x hTask
      ((hMoves.sound hSound).not_global id (.inr hMem))).1
  rw [tasks_untilFront] at hFront
  rw [tick_eq, Outcome.report_andThen, Report.calls_append]
  refine (hUntilFront.append hFront).append (timely_of_exempt fun c hc hHook => ?_)
  exact absurd hHook ((m.untilFallBack dt).mission.fallBack_turn.hook_ne_update c hc)

theorem front_not_global (hSound : m.roster.Sound) {f : TaskId}
    (hFront : m.processCommand.mission.roster.front? = some f) : f ∉ m.roster.globals := by
  have hMoves := m.processCommand_turn.moves
  rw [← hMoves.akin.globals]
  exact (hMoves.sound hSound).not_global f (.inr (List.mem_of_mem_head? hFront))

theorem updatedBeyond_tick (hSound : m.roster.Sound) {f : TaskId}
    (hFront : m.processCommand.mission.roster.front? = some f) :
    updatedBeyond m.roster.globals (m.tick dt).report.calls = [f] := by
  obtain ⟨rest, hStack⟩ := List.head?_eq_some_iff.mp hFront
  rw [← stack_untilFront m dt] at hStack
  have hTurn : updatedBeyond m.roster.globals m.processCommand.report.calls = [] :=
    updatedBeyond_eq_nil fun c hc hHook => absurd hHook (m.processCommand_turn.hook_ne_update c hc)
  rw [calls_tick, updatedBeyond_append, updatedBeyond_append, updatedBeyond_append, hTurn,
    (m.untilFallBack_drive dt hSound).updatedBeyond hStack (front_not_global hSound hFront),
    updatedBeyond_eq_nil (by simp),
    updatedBeyond_eq_nil (by simp)]
  rfl

/-! ## Events -/

@[simp] theorem events_updateAll (m : Mission) (ids : List TaskId) :
    (m.updateAll dt ids).report.events = [] := by
  induction ids generalizing m with
  | nil => rfl
  | cons id ids ih => exact ih (m.update dt id).mission

theorem events_tick (m : Mission) :
    (m.tick dt).report.events =
      m.processCommand.report.events ++ ((m.untilFront dt).mission.driveFront dt).report.events ++
        (m.untilFallBack dt).mission.fallBack.report.events := by
  rw [tick_eq, Outcome.report_andThen, Report.events_append, untilFallBack, Outcome.report_andThen,
    Report.events_append, untilFront, Outcome.report_andThen, Report.events_append, updateGlobals,
    events_updateAll, List.append_nil]

theorem category_processCommand {e : Event} (h : e ∈ m.processCommand.report.events) :
    e.category ≠ .mission := by
  rcases m.command_cases with hText | ⟨c, hParse⟩ | ⟨hText, err, hParse⟩
  · simp [processCommand_of_nil hText] at h
  · rw [processCommand_of_ok hParse, List.mem_cons] at h
    rcases h with rfl | h
    · simp [Event.category]
    · obtain ⟨t, rfl⟩ := Request.eq_missing_of_mem_faults _ _ h
      simp [Event.category]
  · rw [processCommand_of_error hText hParse] at h
    rw [List.mem_singleton.mp h]
    simp [Event.category]

theorem eq_missing_of_mem_fallBack {e : Event} (h : e ∈ m.fallBack.report.events) :
    ∃ t, e = .missing t := by
  rw [fallBack] at h
  split at h
  · rw [← perform, events_perform] at h
    exact Request.eq_missing_of_mem_faults _ _ h
  · simp at h

/-- What a tick reports of the mission itself is reported by its front. -/
theorem announced_tick (hSound : m.roster.Sound) :
    (m.tick dt).report.events.filter (·.category = .mission) =
      ((m.untilFront dt).mission.driveFront dt).report.events := by
  have hCommand : m.processCommand.report.events.filter (·.category = .mission) = [] := by
    rw [List.filter_eq_nil_iff]
    intro e he
    simpa using category_processCommand he
  have hFront : ((m.untilFront dt).mission.driveFront dt).report.events.filter
      (·.category = .mission) = ((m.untilFront dt).mission.driveFront dt).report.events := by
    rw [List.filter_eq_self]
    intro e he
    simpa using (m.untilFallBack_drive dt hSound).category e he
  have hFallBack : (m.untilFallBack dt).mission.fallBack.report.events.filter
      (·.category = .mission) = [] := by
    rw [List.filter_eq_nil_iff]
    intro e he
    obtain ⟨t, rfl⟩ := eq_missing_of_mem_fallBack he
    simp [Event.category]
  rw [events_tick, List.filter_append, List.filter_append, hCommand, hFront, hFallBack,
    List.nil_append, List.append_nil]

end Mission

end Sortie
