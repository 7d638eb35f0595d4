import Sortie.Proofs.Mission.Reports

/-!
# Commands that want a task at the front

Such a command is served in the tick that processes it: the task that it wants
is the one task beyond the global ones that this tick updates, unless no standby
task fits, which is reported and changes nothing.
-/

namespace Sortie

namespace Command

def target? : Command → Option Target
  | home => some (.nickname "circle_home")
  | circle _ => some (.nickname "circle_target")
  | idle => some (.name "idle")
  | land _ => some (.name "land")
  | preflight _ => some (.name "preflight")
  | calibrate => some (.name "calibrate")
  | route => some (.name "route")
  | parametric => some (.name "parametric")
  | resume => none
  | pop => none

variable {c : Command} {t : Target}

theorem request_of_target? (h : c.target? = some t) :
    ∃ o : Order, c.request = .order o ∧ o.target = t := by
  cases c <;> cases h <;> exact ⟨_, rfl, rfl⟩

theorem key_of_target? (h : c.target? = some t) : t.key ≠ "" := by
  cases c <;> cases h <;> simp [Target.key]

end Command

namespace Roster

variable {r : Roster} {t : Target} {id : TaskId}

def AtFront (r : Roster) (t : Target) : Prop := ∃ f x, r.front? = some f ∧ r.task? f = some x ∧ t.fits x

def Listed (r : Roster) (t : Target) : Prop := ∃ j x, j ∈ r.standby ∧ r.task? j = some x ∧ t.fits x

theorem any_fits_iff {j : TaskId} : (r.task? j).any t.fits ↔ ∃ x, r.task? j = some x ∧ t.fits x :=
  Option.any_eq_true _ _

theorem atFront_iff : r.AtFront t ↔ r.frontTask?.any t.fits := by
  rw [frontTask?, Option.any_eq_true]
  constructor
  · rintro ⟨f, x, hFront, hTask, hFits⟩
    exact ⟨x, Option.bind_eq_some_iff.mpr ⟨f, hFront, hTask⟩, hFits⟩
  · rintro ⟨x, hBind, hFits⟩
    obtain ⟨f, hFront, hTask⟩ := Option.bind_eq_some_iff.mp hBind
    exact ⟨f, x, hFront, hTask, hFits⟩

theorem seek_of_atFront (h : r.AtFront t) : r.seek t = .atFront := by
  rw [seek, if_pos (atFront_iff.mp h)]

theorem exists_seek_of_listed (hKey : t.key ≠ "") (h : ¬ r.AtFront t) (hListed : r.Listed t) :
    ∃ id, r.IsFirst t id ∧ r.seek t = .standby id := by
  obtain ⟨j, x, hStandby, hTask, hFits⟩ := hListed
  cases hFind : r.find? t with
  | none =>
    rcases find?_eq_none_iff.mp hFind with hEmpty | hNone
    · exact absurd hEmpty hKey
    · exact absurd (any_fits_iff.mpr ⟨x, hTask, hFits⟩) (hNone j hStandby)
  | some id =>
    exact ⟨id, (find?_eq_some_iff.mp hFind).2, seek_eq_standby_iff.mpr ⟨mt atFront_iff.mpr h, hFind⟩⟩

theorem seek_of_not_listed (h : ¬ r.AtFront t) (hListed : ¬ r.Listed t) : r.seek t = .nowhere := by
  have hFind : r.find? t = none := by
    rw [find?_eq_none_iff]
    refine .inr fun j hStandby hAny => hListed ?_
    obtain ⟨x, hTask, hFits⟩ := any_fits_iff.mp hAny
    exact ⟨j, x, hStandby, hTask, hFits⟩
  rw [seek, if_neg (mt atFront_iff.mpr h), hFind]

end Roster

namespace Mission

open Roster

variable {m : Mission} {c : Command} {t : Target} {dt : Float32}

theorem roster_engage (m : Mission) (t : Target) :
    (m.engage t).mission.roster = match m.roster.seek t with
      | .standby id => m.roster.raise id
      | _ => m.roster := by
  rw [engage]
  cases m.roster.seek t <;> rfl

theorem processCommand_of_target? (hParse : Command.parse m.board.request = .ok c)
    (hTarget : c.target? = some t) :
    m.processCommand.mission.roster = (m.engage t).mission.roster ∧
      m.processCommand.report.calls = (m.engage t).report.calls ∧
      m.processCommand.report.events = .accepted m.board.request :: (m.engage t).report.events ∧
      m.processCommand.mission.board.result = successText m.board.request := by
  obtain ⟨o, hOrder, rfl⟩ := Command.request_of_target? hTarget
  have hPerform : m.perform c.request =
      (m.engage o.target).write (o.publish (m.roster.seek o.target)) := by
    rw [hOrder, perform, order, engage_write]
  rw [processCommand_of_ok hParse, ← events_perform, hPerform]
  exact ⟨rfl, rfl, rfl, rfl⟩

/-- Where a task leads the stack, a tick updates it and posts its name. -/
theorem driven_tick (hSound : m.roster.Sound) (hSettled : m.roster.Settled) {f : TaskId} {x : Task}
    (hFront : m.processCommand.mission.roster.front? = some f)
    (hTask : m.processCommand.mission.roster.task? f = some x) (hFits : t.fits x) :
    (m.tick dt).mission.board.current = x.name ∧
      updatedBeyond m.roster.globals (m.tick dt).report.calls = [f] ∧
      ∀ before after, (m.tick dt).report.calls = before ++ ⟨f, .update⟩ :: after →
        ∃ y, (replay dt m.processCommand.mission.board.preflight before m.roster.tasks)[f]? = some y ∧
          y.phase = .active ∧ t.fits y := by
  refine ⟨?_, updatedBeyond_tick dt hSound hFront, ?_⟩
  · rw [board_tick]
    change m.processCommand.mission.frontName = x.name
    rw [frontName, frontTask?, hFront, Option.bind_some, hTask, Option.map_some, Option.getD_some]
  · intro before after hCalls
    obtain ⟨y, hy, hPhase⟩ :=
      timely_tick dt hSound hSettled before f after hCalls (front_not_global hSound hFront)
    refine ⟨y, hy, hPhase, ?_⟩
    -- no call changes a profile, so the task that is updated fits as the front did
    have hSame : (some y).map Task.profile = (some x).map Task.profile :=
      calc (some y).map Task.profile
        _ = (m.roster.task? f).map Task.profile := by
          rw [← hy]
          exact profile_replay before m.roster.tasks f
        _ = (m.processCommand.mission.roster.task? f).map Task.profile :=
          (m.processCommand_turn.moves.akin.profile f).symm
        _ = (some x).map Task.profile := by rw [hTask]
    rwa [Target.fits_congr (Option.some.inj hSame)]

/--
A command that wants a task at the front leaves the stack alone if the task is
there, and otherwise pushes the first standby task that fits, afresh. Either way
this task is the one that the same tick updates, and it is active then. If no
task fits, one fault is all that the command leads to. It counts as successful in
each case.
-/
theorem targeted_command (p : Plan) (b : Board) (ops : List Op) (dt : Float32) {c : Command}
    {t : Target} (hParse : Command.parse (after p b ops).board.request = .ok c)
    (hTarget : c.target? = some t) :
    let m := after p b ops
    let served := m.processCommand
    let o := m.tick dt
    (m.roster.AtFront t → served.mission.roster = m.roster) ∧
    (¬ m.roster.AtFront t → m.roster.Listed t → ∃ id x, m.roster.IsFirst t id ∧
      served.mission.roster.stack = id :: m.roster.stack ∧
      served.mission.roster.task? id = some x ∧ x.phase = .active ∧ x.elapsed = 0 ∧
      ∀ j ≠ id, served.mission.roster.task? j = m.roster.task? j) ∧
    (m.roster.AtFront t ∨ m.roster.Listed t → ∃ f x, served.mission.roster.front? = some f ∧
      served.mission.roster.task? f = some x ∧ t.fits x ∧ o.mission.board.current = x.name ∧
      updatedBeyond m.roster.globals o.report.calls = [f] ∧
      ∀ before after, o.report.calls = before ++ ⟨f, .update⟩ :: after →
        ∃ y, (replay dt served.mission.board.preflight before m.roster.tasks)[f]? = some y ∧
          y.phase = .active ∧ t.fits y) ∧
    (¬ m.roster.AtFront t → ¬ m.roster.Listed t → served.mission.roster = m.roster ∧
      served.report.calls = [] ∧
      served.report.events.filter (·.category = .fault) = [.missing t]) ∧
    served.mission.board.result = "successful: " ++ m.board.request ∧
    o.mission.board.result = "successful: " ++ m.board.request := by
  intro m served o
  have hSound : m.roster.Sound := sound_after p b ops
  have hSettled : m.roster.Settled := settled_after p b ops
  obtain ⟨hRoster, hCalls, hEvents, hResult⟩ := processCommand_of_target? hParse hTarget
  have hAtFront : m.roster.AtFront t → served.mission.roster = m.roster := by
    intro h
    exact hRoster.trans (by rw [roster_engage, seek_of_atFront h])
  have hListed : ¬ m.roster.AtFront t → m.roster.Listed t →
      ∃ id, m.roster.IsFirst t id ∧ served.mission.roster = m.roster.raise id := by
    intro h hListed
    obtain ⟨id, hFirst, hSeek⟩ := exists_seek_of_listed (Command.key_of_target? hTarget) h hListed
    exact ⟨id, hFirst, hRoster.trans (by rw [roster_engage, hSeek])⟩
  refine ⟨hAtFront, ?_, ?_, ?_, hResult, (result_tick m dt).trans hResult⟩
  · intro h h'
    obtain ⟨id, hFirst, hServed⟩ := hListed h h'
    obtain ⟨x, hTask, -⟩ := hFirst.fits
    refine ⟨id, x.activate, hFirst, ?_, ?_, rfl, rfl, ?_⟩
    · rw [hServed, stack_raise]
    · rw [hServed, task?_raise, if_pos rfl, hTask, Option.map_some]
    · intro j hj
      rw [hServed, task?_raise_of_ne _ _ hj.symm]
  · intro hEither
    have hFront : ∃ f x, served.mission.roster.front? = some f ∧
        served.mission.roster.task? f = some x ∧ t.fits x := by
      by_cases h : m.roster.AtFront t
      · rw [hAtFront h]
        exact h
      · obtain ⟨id, hFirst, hServed⟩ := hListed h (hEither.resolve_left h)
        obtain ⟨x, hTask, hFits⟩ := hFirst.fits
        refine ⟨id, x.activate, by rw [hServed]; rfl, ?_, by rwa [Target.fits_congr x.profile_activate]⟩
        rw [hServed, task?_raise, if_pos rfl, hTask, Option.map_some]
    obtain ⟨f, x, hFront, hTask, hFits⟩ := hFront
    exact ⟨f, x, hFront, hTask, hFits, driven_tick hSound hSettled hFront hTask hFits⟩
  · intro h h'
    have hEngage : m.engage t = m.emit (.missing t) := by
      rw [engage, seek_of_not_listed h h']
    rw [hEngage] at hRoster hCalls hEvents
    refine ⟨hRoster, hCalls, ?_⟩
    rw [show served.report.events = _ from hEvents]
    rfl

/-- This landing is at the front again after it was closed, and so it starts afresh. -/
theorem targeted_command_closed_land :
    let p : Plan := {
      globals := [{ name := "camera" }]
      sequence := [{ name := "route" }]
      standby := [{ name := "land" }, { name := "circle", nickname := some "circle_home" }] }
    let ops : List Op := [.request (.order (.land none)), .request (.order .home),
      .request (.order (.land none)), .request .pop, .request .pop, .submit "task, land"]
    Command.parse (after p {} ops).board.request = .ok (.land none) ∧
      (Command.land none).target? = some (.name "land") ∧
      (after p {} ops).processCommand.mission.roster = (after p {} ops).roster ∧
      ((after p {} ops).roster.task? 2).map Task.phase = some .inactive ∧
      updatedBeyond (after p {} ops).roster.globals ((after p {} ops).tick 0.5).report.calls = [2] ∧
      ((after p {} ops).tick 0.5).mission.board.current = "land" ∧
      ((after p {} ops).tick 0.5).mission.board.result = "successful: task, land" := by
  intro p ops
  have hText : (after p {} ops).board.request = "task, land" := by decide +kernel
  have hParse : Command.parse (after p {} ops).board.request = .ok (.land none) := by
    rw [hText]
    rfl
  have hTarget : (Command.land none).target? = some (.name "land") := rfl
  obtain ⟨hStay, -, hDriven, -, -, hResult⟩ := targeted_command p {} ops 0.5 hParse hTarget
  have hAtFront : (after p {} ops).roster.AtFront (.name "land") :=
    atFront_iff.mpr (by decide +kernel)
  obtain ⟨f, x, hFront, -, hFits, hCurrent, hUpdated, -⟩ := hDriven (.inl hAtFront)
  have hLand : (after p {} ops).processCommand.mission.roster.front? = some 2 := by decide +kernel
  have hTwo : f = 2 := Option.some.inj (hFront.symm.trans hLand)
  have hName : x.name = "land" := of_decide_eq_true hFits
  rw [hTwo] at hUpdated
  rw [hText] at hResult
  exact ⟨hParse, hTarget, hStay hAtFront, by decide +kernel, hUpdated, hCurrent.trans hName, hResult⟩

end Mission

end Sortie
