import Sortie.Proofs.Mission.History

/-!
# The idle fallback

A tick that would end with an empty stack puts the idle task there, if the plan
provides one, and a tick that would not is left alone. So no tick of a mission
with an idle task ends with an empty stack.
-/

namespace Sortie

namespace Plan

def HasIdle (p : Plan) : Prop :=
  ∃ e ∈ p.standby, e.name = Order.idleName ∧ (Kind.ofSelector? e.selector).isSome

variable {p : Plan}

theorem exists_standby_iff (t : Target) :
    (∃ j ∈ p.roster.standby, (p.roster.task? j).any t.fits) ↔
      ∃ x ∈ p.accepted .standby, t.fits x := by
  have hTasks := congrArg (List.any · (Option.any t.fits)) (p.map_task?_ids .standby)
  simp only [List.any_map] at hTasks
  calc (∃ j ∈ p.roster.standby, (p.roster.task? j).any t.fits)
    _ ↔ (p.ids .standby).any (Option.any t.fits ∘ p.roster.task?) := List.any_eq_true.symm
    _ ↔ (p.accepted .standby).any (Option.any t.fits ∘ some) := by rw [hTasks]
    _ ↔ ∃ x ∈ p.accepted .standby, t.fits x := List.any_eq_true

theorem hasIdle_iff : p.HasIdle ↔ ∃ x ∈ p.accepted .standby, (Target.name Order.idleName).fits x := by
  constructor
  · rintro ⟨e, he, hName, hKind⟩
    obtain ⟨kind, hKind⟩ := Option.isSome_iff_exists.mp hKind
    refine ⟨Task.ofEntry kind e, List.mem_filterMap.mpr ⟨e, he, ?_⟩, ?_⟩
    · rw [Entry.toTask?, hKind, Option.map_some]
    · exact decide_eq_true hName
  · rintro ⟨x, hx, hFits⟩
    obtain ⟨e, he, hTask⟩ := List.mem_filterMap.mp hx
    obtain ⟨kind, hKind, rfl⟩ := Option.map_eq_some_iff.mp hTask
    exact ⟨e, he, of_decide_eq_true hFits, by rw [hKind, Option.isSome_some]⟩

theorem find?_idle_eq_none_iff : p.roster.find? (.name Order.idleName) = none ↔ ¬ p.HasIdle := by
  rw [hasIdle_iff, ← exists_standby_iff, Roster.find?_eq_none_iff]
  have hKey : (Target.name Order.idleName).key ≠ "" := by decide
  simp [hKey]

theorem HasIdle.exists_find? (h : p.HasIdle) : ∃ id, p.roster.find? (.name Order.idleName) = some id := by
  cases hFind : p.roster.find? (.name Order.idleName) with
  | none => exact absurd h (find?_idle_eq_none_iff.mp hFind)
  | some id => exact ⟨id, rfl⟩

end Plan

namespace Mission

variable {m : Mission} {dt : Float32} {id : TaskId}

theorem tick_eq_push (hStack : (m.untilFallBack dt).mission.roster.stack = [])
    (hFind : (m.untilFallBack dt).mission.roster.find? (.name Order.idleName) = some id) :
    m.tick dt = (m.untilFallBack dt).andThen (·.push id) := by
  rw [tick_eq, Outcome.andThen, fallBack_eq _ hStack, hFind]
  rfl

theorem tick_eq_emit (hStack : (m.untilFallBack dt).mission.roster.stack = [])
    (hFind : (m.untilFallBack dt).mission.roster.find? (.name Order.idleName) = none) :
    m.tick dt = (m.untilFallBack dt).andThen (emit (.missing (.name Order.idleName))) := by
  rw [tick_eq, Outcome.andThen, fallBack_eq _ hStack, hFind]
  rfl

theorem untilFallBack_akin (p : Plan) (b : Board) (ops : List Op) (dt : Float32) :
    p.roster.Akin ((after p b ops).untilFallBack dt).mission.roster :=
  (after_akin p b ops).trans (untilFallBack_moves _ dt (sound_after p b ops)).akin

/--
The stack of a mission with an idle task is not empty at the end of a tick. The
fallback does nothing in a tick whose stack is not empty after the front is
driven. Otherwise it makes the first standby task named `idle` the whole stack,
or, if there is none, reports that and changes nothing.
-/
theorem idle_fallback (p : Plan) (b : Board) (ops : List Op) (dt : Float32) :
    let before := (after p b ops).untilFallBack dt
    let final := (after p b ops).tick dt
    (p.HasIdle → final.mission.roster.stack ≠ []) ∧
    (before.mission.roster.stack ≠ [] → final = before) ∧
    (before.mission.roster.stack = [] → p.HasIdle →
      ∃ id x, final.mission.roster.IsFirst (.name "idle") id ∧
        final.mission.roster.stack = [id] ∧
        final.mission.roster.task? id = some x ∧ x.phase = .active ∧ x.elapsed = 0 ∧
        (∀ j ≠ id, final.mission.roster.task? j = before.mission.roster.task? j) ∧
        final.report = before.report ++ .call id .activate) ∧
    (before.mission.roster.stack = [] → ¬ p.HasIdle →
      final.mission = before.mission ∧
      ∃ e : Event, final.report = before.report ++ .event e ∧ e = .missing (.name "idle") ∧
        e.category = .fault) := by
  intro before final
  have hFind := (untilFallBack_akin p b ops dt).find? (.name Order.idleName)
  have hFires : before.mission.roster.stack = [] → p.HasIdle → ∃ id x,
      final.mission.roster.IsFirst (.name "idle") id ∧ final.mission.roster.stack = [id] ∧
        final.mission.roster.task? id = some x ∧ x.phase = .active ∧ x.elapsed = 0 ∧
        (∀ j ≠ id, final.mission.roster.task? j = before.mission.roster.task? j) ∧
        final.report = before.report ++ .call id .activate := by
    intro hStack hIdle
    obtain ⟨id, hId⟩ := hIdle.exists_find?
    rw [hId] at hFind
    have hFirst := (Roster.find?_eq_some_iff.mp hFind).2
    obtain ⟨x, hx, -⟩ := hFirst.fits
    have hFinal : final = before.andThen (·.push id) := tick_eq_push hStack hFind
    have hRoster : final.mission.roster = before.mission.roster.raise id := by
      rw [hFinal]
      rfl
    refine ⟨id, x.activate, ?_, ?_, ?_, rfl, rfl, ?_, ?_⟩
    · rw [hRoster]
      exact Roster.Akin.of_raise.isFirst_iff.mpr hFirst
    · rw [hRoster, Roster.stack_raise, hStack]
    · rw [hRoster, Roster.task?_raise, if_pos rfl, hx, Option.map_some]
    · intro j hj
      rw [hRoster, Roster.task?_raise_of_ne _ _ hj.symm]
    · rw [hFinal]
      rfl
  refine ⟨?_, tick_eq_untilFallBack, hFires, ?_⟩
  · intro hIdle
    by_cases hStack : before.mission.roster.stack = []
    · obtain ⟨id, -, -, hFinal, -⟩ := hFires hStack hIdle
      rw [hFinal]
      exact List.cons_ne_nil id []
    · rwa [show final = before from tick_eq_untilFallBack hStack]
  · intro hStack hIdle
    rw [Plan.find?_idle_eq_none_iff.mpr hIdle] at hFind
    have hFinal : final = before.andThen (emit (.missing (.name Order.idleName))) :=
      tick_eq_emit hStack hFind
    rw [hFinal]
    exact ⟨rfl, .missing (.name Order.idleName), rfl, rfl, rfl⟩

/-- A pop empties the stack of this plan, whose first entry named `idle` is not accepted. -/
theorem idle_fallback_after_pop :
    let p : Plan := {
      sequence := [{ name := "route" }]
      standby := [{ name := "idle", task := some "hover" }, { name := "land" }, { name := "idle" },
        { name := "idle" }] }
    p.HasIdle ∧ ((after p {} [.submit "pop"]).untilFallBack 0.5).mission.roster.stack = [] ∧
      ((after p {} [.submit "pop"]).tick 0.5).mission.roster.stack ≠ [] ∧
      ∃ id x, ((after p {} [.submit "pop"]).tick 0.5).mission.roster.stack = [id] ∧
        ((after p {} [.submit "pop"]).tick 0.5).mission.roster.task? id = some x ∧
        x.phase = .active := by
  intro p
  have hIdle : p.HasIdle := ⟨{ name := "idle" }, by simp [p], rfl, by decide⟩
  have hStack : ((after p {} [.submit "pop"]).untilFallBack 0.5).mission.roster.stack = [] := by
    decide +kernel
  obtain ⟨hNever, -, hFires, -⟩ := idle_fallback p {} [.submit "pop"] 0.5
  obtain ⟨id, x, -, hFinal, hTask, hPhase, -⟩ := hFires hStack hIdle
  exact ⟨hIdle, hStack, hNever hIdle, id, x, hFinal, hTask, hPhase⟩

end Mission

end Sortie
