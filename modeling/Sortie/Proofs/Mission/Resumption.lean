import Sortie.Proofs.Mission.Writing

/-!
# Resuming what was interrupted

A resume goes by the name of the front and an order to circle by a nickname, so that
what the one pushed the other need not retire. Where it does, the stack and all other
tasks are as they were before the interruption.
-/

namespace Sortie.Mission

open Roster

variable {m : Mission} {o : Order} {id : TaskId} {x : Task}

/-- A resume depends on nothing but the name of the front. -/
theorem resume_eq (hFront : m.roster.front? = some id) (hTask : m.roster.task? id = some x) :
    m.resume = if x.name ∈ resumable then m.pop else m.stay := by
  rw [resume, frontTask?, hFront, Option.bind_some, hTask, Option.any_some]
  simp only [decide_eq_true_eq]

theorem resume_of_pushed {rest : List TaskId} (hStack : m.roster.stack = id :: rest)
    (hTask : m.roster.task? id = some x) :
    (x.name ∈ resumable → m.resume = ⟨m.arrange Roster.pop, .call id .close⟩) ∧
      (x.name ∉ resumable → m.resume = m.stay) := by
  have hFront : m.roster.front? = some id := by
    rw [front?, hStack, List.head?_cons]
  rw [resume_eq hFront hTask]
  constructor
  · intro hName
    rw [if_pos hName, pop_eq hStack]
  · intro hName
    rw [if_neg hName]

theorem exists_raised_of_grows (h : m.Grows (.order o)) :
    ∃ id x, m.roster.IsFirst o.target id ∧ m.roster.task? id = some x ∧ o.target.fits x ∧
      (m.order o).mission.roster = m.roster.raise id := by
  obtain ⟨id, hSeek⟩ := grows_order_iff.mp h
  have hFirst := isFirst_of_seek hSeek
  obtain ⟨x, hTask, hFits⟩ := hFirst.fits
  refine ⟨id, x, hFirst, hTask, hFits, ?_⟩
  rw [roster_order, hSeek]

/--
Let an order to circle a point or to land push a task. A resume right after it closes
this task and brings back the stack and all other tasks as they were, if the task is
named `circle-coord` or `land`; after a landing it always is. A task of another name,
which an order to circle pushes where the plan gives it the nickname, stays at the
front, and the resume changes nothing.
-/
theorem resume_after_interruption {c : Command}
    (hCommand : (∃ target, c = .circle target) ∨ ∃ heading, c = .land heading)
    (hGrows : m.Grows c.request) :
    let pushed := (m.perform c.request).mission
    let resumed := pushed.perform Command.resume.request
    ∃ id x, id ∈ m.roster.standby ∧ m.roster.task? id = some x ∧
      pushed.roster.stack = id :: m.roster.stack ∧
      (∀ heading, c = .land heading → x.name = "land") ∧
      (x.name = "circle-coord" ∨ x.name = "land" →
        resumed.report.calls = [⟨id, .close⟩] ∧
        resumed.mission.roster.stack = m.roster.stack ∧
        (∃ y, resumed.mission.roster.task? id = some y ∧ y.phase = .inactive) ∧
        ∀ j ≠ id, resumed.mission.roster.task? j = m.roster.task? j) ∧
      (x.name ≠ "circle-coord" → x.name ≠ "land" → resumed = pushed.stay) := by
  intro pushed resumed
  have hOrder : ∃ o : Order, c.request = .order o ∧
      ∀ heading, c = .land heading → o.target = .name "land" := by
    rcases hCommand with ⟨target, rfl⟩ | ⟨heading, rfl⟩
    · exact ⟨.circle target, rfl, fun _ h => by cases h⟩
    · exact ⟨.land heading, rfl, fun _ _ => rfl⟩
  obtain ⟨o, hRequest, hLand⟩ := hOrder
  rw [hRequest] at hGrows
  obtain ⟨id, x, hFirst, hTask, hFits, hRaised⟩ := exists_raised_of_grows hGrows
  have hPushed : pushed.roster = m.roster.raise id := by
    rw [← hRaised, show pushed = (m.perform c.request).mission from rfl, hRequest]
    rfl
  have hStack : pushed.roster.stack = id :: m.roster.stack := by
    rw [hPushed, stack_raise]
  have hTop : pushed.roster.task? id = some x.activate := by
    rw [hPushed, task?_raise, if_pos rfl, hTask, Option.map_some]
  have hNames : x.name ∈ resumable ↔ x.name = "circle-coord" ∨ x.name = "land" := by
    simp [resumable]
  obtain ⟨hRetires, hStays⟩ := resume_of_pushed hStack hTop
  refine ⟨id, x, hFirst.mem, hTask, hStack, ?_, ?_, ?_⟩
  · intro heading hc
    rw [hLand heading hc] at hFits
    exact of_decide_eq_true hFits
  · intro hName
    have hResumed : resumed = ⟨pushed.arrange Roster.pop, .call id .close⟩ :=
      hRetires (hNames.mpr hName)
    rw [hResumed]
    refine ⟨rfl, stack_pop_of_eq _ id hStack, ⟨x.activate.close, ?_, rfl⟩, fun j hj => ?_⟩
    · rw [roster_arrange, task?_pop _ id hStack, if_pos rfl, hTop, Option.map_some]
    · rw [roster_arrange, task?_pop_of_ne _ id hStack hj.symm, hPushed, task?_raise_of_ne _ _ hj.symm]
  · intro hNotCircle hNotLand
    exact hStays fun h => (hNames.mp h).elim hNotCircle hNotLand

/-- An orbit under its usual name is retired, and the route below it goes on. -/
theorem resume_after_interruption_circle :
    let p : Plan := {
      sequence := [{ name := "route" }]
      standby := [{ name := "land" },
        { name := "circle-coord", task := some "circle", nickname := some "circle_target" }] }
    let m := after p {} [.tick 0.5]
    m.Grows (Command.circle none).request ∧
      (m.perform (Command.circle none).request).mission.roster.stack = [2, 0] ∧
      ((m.perform (Command.circle none).request).mission.perform
        Command.resume.request).mission.roster.stack = m.roster.stack ∧
      ((m.perform (Command.circle none).request).mission.perform
        Command.resume.request).mission.roster.task? 0 = m.roster.task? 0 := by
  intro p m
  have hGrows : m.Grows (Command.circle none).request := by
    unfold Grows
    decide +kernel
  have hPushed : (m.perform (Command.circle none).request).mission.roster.stack = [2, 0] := by
    decide +kernel
  obtain ⟨id, x, -, hTask, hStack, -, hRetired, -⟩ :=
    resume_after_interruption (c := .circle none) (.inl ⟨none, rfl⟩) hGrows
  have hTwo : 2 = id := (List.cons.inj (hPushed.symm.trans hStack)).1
  subst hTwo
  have hName : (m.roster.task? 2).map Task.name = some "circle-coord" := by decide +kernel
  rw [hTask] at hName
  obtain ⟨-, hBack, -, hOther⟩ := hRetired (.inl (Option.some.inj hName))
  exact ⟨hGrows, hPushed, hBack, hOther 0 (by decide)⟩

/-- An orbit under another name is not: it stays at the front, and active. -/
theorem orbit_not_resumed :
    let p : Plan := {
      sequence := [{ name := "route" }]
      standby := [{ name := "orbit", task := some "circle", nickname := some "circle_target" }] }
    let m := after p {} []
    let pushed := (m.perform (Command.circle none).request).mission
    let resumed := (pushed.perform Command.resume.request).mission
    m.Grows (Command.circle none).request ∧ m.roster.stack = [0] ∧
      resumed.roster.stack = [1, 0] ∧ resumed.roster.stack ≠ m.roster.stack ∧
      (resumed.roster.task? 1).map Task.phase = some .active := by
  intro p m pushed resumed
  refine ⟨?_, by decide +kernel, by decide +kernel, by decide +kernel, by decide +kernel⟩
  unfold Grows
  decide +kernel

end Sortie.Mission
