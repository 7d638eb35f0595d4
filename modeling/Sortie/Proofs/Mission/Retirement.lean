import Sortie.Proofs.Task.Stint
import Sortie.Proofs.Mission.Conservation
import Sortie.Proofs.Mission.Fallback

/-!
# The retirement of an undisturbed front

While nothing but time passes, the front adds up the ticks. It stays in front as long
as no sum reaches its limit, and the first tick whose sum does retires it.
-/

namespace Sortie

/-- Only a preflight heeds what was commanded, and only the timed kinds have a limit. -/
theorem Profile.limit_eq (p : Profile) (commanded : Option Float32) :
    p.limit commanded = match p.kind with
      | .preflight => commanded <|> p.duration
      | .calibrate | .excite | .launch | .land | .land3 | .parametric | .route => p.duration
      | _ => none := by
  rw [limit]
  cases p.kind <;> rfl

namespace Task

variable {x : Task} {dt : Float32} {commanded : Option Float32}

/-- The time that these ticks bring the task to, if it goes on so long; inactive, it starts afresh. -/
def spent (x : Task) (dts : List Float32) : Float32 :=
  dts.foldl (· + ·) (if x.phase = .active then x.elapsed else 0)

def Due (commanded : Option Float32) (dts : List Float32) (x : Task) : Prop :=
  x.profile.expired commanded (x.spent dts)

theorem drive_eq (hPhase : x.phase ≠ .complete) :
    x.drive dt commanded = { x with
      phase := if x.profile.expired commanded (x.spent [dt]) then .complete else .active
      elapsed := x.spent [dt] } := by
  cases hCase : x.phase with
  | inactive | active => simp [drive, rouse, update, spent, hCase]
  | complete => exact absurd hCase hPhase

theorem drive_of_not_due (hPhase : x.phase ≠ .complete) (hDue : ¬ x.Due commanded [dt]) :
    x.drive dt commanded = { x with phase := .active, elapsed := x.spent [dt] } := by
  rw [Due] at hDue
  rw [drive_eq hPhase, if_neg hDue]

theorem phase_drive_of_due (hPhase : x.phase ≠ .complete) (hDue : x.Due commanded [dt]) :
    (x.drive dt commanded).phase = .complete := by
  rw [drive_eq hPhase]
  exact if_pos hDue

end Task

namespace Roster

variable {r s : Roster} {dt : Float32} {commanded : Option Float32} {report : Report}
  {f : TaskId} {rest : List TaskId} {x : Task}

/-- What stands at the front has just been activated, and this task is inactive if it does not. -/
structure Relieved (f : TaskId) (r : Roster) : Prop where
  fresh : ∀ id, r.front? = some id → ∃ x, r.task? id = some x ∧ x.phase = .active ∧ x.elapsed = 0
  inactive : r.front? ≠ some f → ∃ x, r.task? f = some x ∧ x.phase = .inactive

theorem relieved_of_nil (hStack : r.stack = []) (hTask : r.task? f = some x)
    (hPhase : x.phase = .inactive) : r.Relieved f where
  fresh id hId := by simp [front?, hStack] at hId
  inactive _ := ⟨x, hTask, hPhase⟩

theorem relieved_modify {id : TaskId} {y : Task} (hStack : r.stack = id :: rest)
    (hNext : r.task? id = some y) (hTask : r.task? f = some x) (hPhase : x.phase = .inactive) :
    (r.modify id Task.activate).Relieved f := by
  have hFront : (r.modify id Task.activate).front? = some id := by
    rw [front?, stack_modify, hStack, List.head?_cons]
  constructor
  · intro j hj
    cases hFront.symm.trans hj
    exact ⟨y.activate, by rw [task?_modify_self, hNext, Option.map_some], rfl, rfl⟩
  · intro hOther
    have hId : id ≠ f := fun hSame => hOther (hSame ▸ hFront)
    exact ⟨x, by rw [task?_modify_of_ne _ _ _ hId, hTask], hPhase⟩

theorem Drive.relieved (h : r.Drive dt commanded report s) (hStack : r.stack = f :: rest)
    (hTask : r.task? f = some x) (hPhase : (x.drive dt commanded).phase = .complete) :
    s.Relieved f := by
  have hClosed : (r.modify f (Task.drive dt commanded)).pop.task? f =
      some (x.drive dt commanded).close := by
    rw [task?_pop (r.modify f _) f hStack, if_pos rfl, task?_modify_self, hTask]
    rfl
  have hFront : ∀ {id l}, r.stack = id :: l → f = id := fun hStack' =>
    (List.cons.inj (hStack.symm.trans hStack')).1
  cases h with
  | absent hStack' => simp [hStack] at hStack'
  | goesOn hStack' hTask' hPhase' =>
    cases hFront hStack'
    cases hTask.symm.trans hTask'
    exact absurd hPhase hPhase'
  | ends hStack' =>
    cases hFront hStack'
    exact relieved_of_nil (by simp [hStack']) hClosed rfl
  | handsOver hStack' _ _ hNext =>
    cases hFront hStack'
    obtain ⟨z, hz, -⟩ := (Akin.of_drive_pop f dt commanded).exists_task? hNext
    exact relieved_modify (stack_pop_of_eq (r.modify f _) f hStack') hz hClosed rfl

end Roster

namespace Mission

open Roster

variable {m : Mission} {dt : Float32} {f : TaskId} {rest : List TaskId} {x : Task}

structure Led (m : Mission) (f : TaskId) (rest : List TaskId) (x : Task) : Prop where
  sound : m.roster.Sound
  slot : m.board.request = ""
  stack : m.roster.stack = f :: rest
  task : m.roster.task? f = some x
  phase : x.phase ≠ .complete

theorem relieved_fallBack (h : m.roster.Relieved f) : m.fallBack.mission.roster.Relieved f := by
  by_cases hStack : m.roster.stack = []
  · obtain ⟨y, hTask, hPhase⟩ := h.inactive (by simp [front?, hStack])
    rw [fallBack_eq m hStack]
    cases hFind : m.roster.find? (.name Order.idleName) with
    | none => exact relieved_of_nil hStack hTask hPhase
    | some id =>
      obtain ⟨z, hIdle, -⟩ := (find?_eq_some_iff.mp hFind).2.fits
      exact relieved_modify (r := m.roster.push id) rfl hIdle hTask hPhase
  · rwa [fallBack_eq_stay m hStack]

namespace Led

theorem command (h : m.Led f rest x) : m.processCommand = m.stay :=
  processCommand_of_nil h.slot

theorem stack_untilFront (h : m.Led f rest x) (dt : Float32) :
    (m.untilFront dt).mission.roster.stack = f :: rest := by
  rw [Mission.stack_untilFront, h.command, mission_stay, h.stack]

theorem task?_untilFront (h : m.Led f rest x) (dt : Float32) :
    (m.untilFront dt).mission.roster.task? f = some x := by
  have hNot : f ∉ m.roster.globals := h.sound.not_global f (.inr (by simp [h.stack]))
  rw [Mission.task?_untilFront m dt hNot, h.command, mission_stay, h.task]

theorem drive (h : m.Led f rest x) (dt : Float32) :
    (m.untilFront dt).mission.roster.Drive dt m.board.preflight
      ((m.untilFront dt).mission.driveFront dt).report (m.untilFallBack dt).mission.roster := by
  have hDrive := m.untilFallBack_drive dt h.sound
  rwa [h.command, mission_stay] at hDrive

theorem preflight_tick (h : m.Led f rest x) (dt : Float32) :
    (m.tick dt).mission.board.preflight = m.board.preflight := by
  rw [board_tick, h.command]
  rfl

theorem events_tick (h : m.Led f rest x) (dt : Float32) :
    (m.tick dt).report.events = ((m.untilFront dt).mission.driveFront dt).report.events ++
      (m.untilFallBack dt).mission.fallBack.report.events := by
  rw [Mission.events_tick, h.command]
  rfl

theorem closed_tick (h : m.Led f rest x) (dt : Float32) :
    closed (m.tick dt).report.calls = closed ((m.untilFront dt).mission.driveFront dt).report.calls := by
  rw [Mission.closed_tick, h.command]
  rfl

/-- A tick that is not due leaves everything in place and reports nothing. -/
theorem goesOn (h : m.Led f rest x) (hDue : ¬ x.Due m.board.preflight [dt]) :
    (m.tick dt).mission.Led f rest { x with phase := .active, elapsed := x.spent [dt] } ∧
      (m.tick dt).report.events = [] := by
  have hDriven := Task.drive_of_not_due h.phase hDue
  obtain ⟨hReport, hRoster⟩ := ((h.drive dt).of_cons (h.stack_untilFront dt)
    (h.task?_untilFront dt)).1 (by simp [hDriven])
  have hStack : (m.untilFallBack dt).mission.roster.stack = f :: rest := by
    rw [hRoster, stack_modify, h.stack_untilFront]
  have hStays : (m.untilFallBack dt).mission.roster.stack ≠ [] := by simp [hStack]
  have hTick := tick_eq_untilFallBack hStays
  refine ⟨⟨(m.tick_moves dt h.sound).sound h.sound, m.request_tick dt, ?_, ?_, by simp⟩, ?_⟩
  · rw [hTick, hStack]
  · rw [hTick, hRoster, task?_modify_self, h.task?_untilFront, Option.map_some, hDriven]
  · rw [h.events_tick, hReport, fallBack_eq_stay _ hStays]
    rfl

/-- A tick that is due closes the front and hands over. -/
theorem ends (h : m.Led f rest x) (hDue : x.Due m.board.preflight [dt]) :
    (m.tick dt).report.events.filter Event.isFinished = [.finished x.name] ∧
      closed (m.tick dt).report.calls = [f] ∧
      (m.tick dt).mission.roster.Relieved f ∧
      (m.untilFallBack dt).mission.roster.stack = rest := by
  have hPhase := Task.phase_drive_of_due h.phase hDue
  obtain ⟨hStack, hReport⟩ := ((h.drive dt).of_cons (h.stack_untilFront dt)
    (h.task?_untilFront dt)).2 hPhase
  have hRelieved := (h.drive dt).relieved (h.stack_untilFront dt) (h.task?_untilFront dt) hPhase
  refine ⟨?_, ?_, relieved_fallBack hRelieved, hStack⟩
  · have hNext : ∀ names : List String, (names.map Event.next).filter Event.isFinished = [] := by
      intro names
      simp [Event.isFinished]
    have hFallBack : (m.untilFallBack dt).mission.fallBack.report.events.filter Event.isFinished = [] := by
      rw [← List.length_eq_zero_iff, ← List.countP_eq_length_filter]
      exact finished_fallBack _
    rw [h.events_tick, hReport, List.filter_append, hFallBack, List.append_nil]
    exact congrArg (Event.finished x.name :: ·) (hNext _)
  · have hActivate : closed (rest.head?.toList.map fun next => ⟨next, .activate⟩) = [] :=
      closed_eq_nil (by simp)
    rw [h.closed_tick, hReport, closed_append, closed_driveCalls, ← List.singleton_append,
      closed_append, hActivate]
    rfl

theorem run (h : m.Led f rest x) {dts : List Float32}
    (hDue : ∀ ds ≠ [], ds <+: dts → ¬ x.Due m.board.preflight ds) :
    let o := m.run (dts.map .tick)
    o.mission.board.preflight = m.board.preflight ∧ o.report.events = [] ∧
      ∃ y, o.mission.Led f rest y ∧ y.profile = x.profile ∧
        (x.phase = .active ∨ dts ≠ [] → y.phase = .active) ∧ ∀ ds, y.spent ds = x.spent (dts ++ ds) := by
  induction dts generalizing m x with
  | nil => exact ⟨rfl, rfl, x, h, rfl, by simp, fun _ => rfl⟩
  | cons dt dts ih =>
    obtain ⟨hLed, hEvents⟩ := h.goesOn (hDue [dt] (by simp) (by simp))
    have hPreflight := h.preflight_tick dt
    -- what is not due from here on was not due from the start
    have hLater : ∀ ds ≠ [], ds <+: dts → ¬ Task.Due (m.tick dt).mission.board.preflight ds
        { x with phase := .active, elapsed := x.spent [dt] } := by
      intro ds _ hPrefix
      rw [hPreflight]
      exact hDue (dt :: ds) (by simp) (by simpa using hPrefix)
    obtain ⟨hBoard, hRest, y, hLed, hProfile, hPhase, hSpent⟩ := ih hLed hLater
    refine ⟨hBoard.trans hPreflight, ?_, y, hLed, hProfile, fun _ => hPhase (.inl rfl), hSpent⟩
    exact (congrArg₂ (· ++ ·) hEvents hRest).trans (List.append_nil [])

/-- Ticks that are not due leave nothing but their sum. -/
theorem run_stays (h : m.Led f rest x) {dts : List Float32} (hNil : dts ≠ [])
    (hDue : ∀ ds ≠ [], ds <+: dts → ¬ x.Due m.board.preflight ds) :
    let o := m.run (dts.map .tick)
    o.mission.roster.stack = m.roster.stack ∧
      o.mission.roster.task? f = some { x with phase := .active, elapsed := x.spent dts } ∧
      o.report.events = [] := by
  intro o
  obtain ⟨-, hEvents, y, hLater, hProfile, hPhase, hSpent⟩ := h.run hDue
  have hActive : y.phase = .active := hPhase (.inr hNil)
  have hElapsed : y.elapsed = x.spent dts := by
    have hSum := hSpent []
    rwa [List.append_nil, Task.spent, if_pos hActive, List.foldl_nil] at hSum
  have hAged : y = { x with phase := .active, elapsed := x.spent dts } := by
    rw [← hActive, ← hElapsed, ← hProfile]
  exact ⟨hLater.stack.trans h.stack.symm, hAged ▸ hLater.task, hEvents⟩

end Led

theorem led_after {p : Plan} {b : Board} {ops : List Op} (hSlot : (after p b ops).board.request = "")
    (hFront : (after p b ops).roster.front? = some f) (hTask : (after p b ops).roster.task? f = some x) :
    (after p b ops).Led f (after p b ops).roster.stack.tail x := by
  have hSound := sound_after p b ops
  obtain ⟨rest, hStack⟩ := List.head?_eq_some_iff.mp hFront
  have hNot : f ∉ (after p b ops).roster.globals :=
    hSound.not_global f (.inr (List.mem_of_mem_head? hFront))
  refine ⟨hSound, hSlot, ?_, hTask, (settled_after p b ops f x hTask hNot).1⟩
  rw [hStack, List.tail_cons]

/-- What a tick leaves of the stack it stays with, and the idle task stands in for nothing. -/
theorem stack_tick_of_left {p : Plan} {b : Board} {ops : List Op} {left : List TaskId}
    (h : ((after p b ops).untilFallBack dt).mission.roster.stack = left) :
    let r := ((after p b ops).tick dt).mission.roster
    (left ≠ [] → r.stack = left) ∧
      (left = [] → p.HasIdle → ∃ id, p.roster.IsFirst (.name "idle") id ∧ r.stack = [id]) ∧
      (left = [] → ¬ p.HasIdle → r.stack = []) := by
  intro r
  have hStack : r.stack = ((after p b ops).untilFallBack dt).mission.fallBackPushes ++ left := by
    rw [← h]
    exact stack_fallBack _
  have hFind : ((after p b ops).untilFallBack dt).mission.roster.find? (.name Order.idleName) =
      p.roster.find? (.name Order.idleName) := (untilFallBack_akin p b ops dt).find? _
  refine ⟨fun hSome => ?_, fun hNone hIdle => ?_, fun hNone hIdle => ?_⟩
  · rw [hStack, fallBackPushes, if_neg (h ▸ hSome), List.nil_append]
  · obtain ⟨id, hId⟩ := hIdle.exists_find?
    refine ⟨id, (find?_eq_some_iff.mp hId).2, ?_⟩
    rw [hStack, fallBackPushes, if_pos (h.trans hNone), hFind, hId, hNone]
    rfl
  · rw [hStack, fallBackPushes, hFind, Plan.find?_idle_eq_none_iff.mpr hIdle, hNone]
    split <;> rfl

/--
A front that nothing disturbs, after any run that leaves the command slot empty. It is
active or inactive, and its limit depends on its kind. Through any ticks of which none
takes the sum, from its elapsed time on or from zero if it is inactive, to its limit,
the stack stays, the front is active with that sum, and no event is reported. The first
tick that does so reports one task to be finished, closes this one, and leaves the rest
of the stack, or the idle task if that is empty and the plan provides one; and what is
then in front has just been activated.
-/
theorem undisturbed_front (p : Plan) (b : Board) (ops : List Op) {f : TaskId} {x : Task}
    (hSlot : (after p b ops).board.request = "")
    (hFront : (after p b ops).roster.front? = some f)
    (hTask : (after p b ops).roster.task? f = some x) :
    let m := after p b ops
    let limit : Option Float32 := match x.profile.kind with
      | .preflight => m.board.preflight <|> x.profile.duration
      | .calibrate | .excite | .launch | .land | .land3 | .parametric | .route => x.profile.duration
      | _ => none
    let sum (ds : List Float32) : Float32 :=
      ds.foldl (· + ·) (if x.phase = .active then x.elapsed else 0)
    let due (ds : List Float32) : Prop := ∃ l, limit = some l ∧ l ≤ sum ds
    let stays (ds : List Float32) : Prop :=
      let o := m.run (ds.map .tick)
      o.mission.roster.stack = m.roster.stack ∧
        o.mission.roster.task? f = some { x with phase := .active, elapsed := sum ds } ∧
        o.report.events = []
    (x.phase = .active ∨ x.phase = .inactive) ∧
    (∀ dts ≠ [], (∀ ds ≠ [], ds <+: dts → ¬ due ds) → stays dts) ∧
    ∀ before dt, (∀ ds ≠ [], ds <+: before → ¬ due ds) → due (before ++ [dt]) →
      (∀ ds ≠ [], ds <+: before → stays ds) ∧
      let last := (m.run (before.map .tick)).mission.tick dt
      let r := last.mission.roster
      last.report.events.filter Event.isFinished = [.finished x.name] ∧
      closed last.report.calls = [f] ∧
      (r.front? ≠ some f → ∃ y, r.task? f = some y ∧ y.phase = .inactive) ∧
      (m.roster.stack.tail ≠ [] → r.stack = m.roster.stack.tail) ∧
      (m.roster.stack.tail = [] → p.HasIdle →
        ∃ id, p.roster.IsFirst (.name "idle") id ∧ r.stack = [id]) ∧
      (m.roster.stack.tail = [] → ¬ p.HasIdle → r.stack = []) ∧
      ∀ id, r.front? = some id →
        ∃ y, r.task? id = some y ∧ y.phase = .active ∧ y.elapsed = 0 := by
  intro m limit sum due stays
  have hLed : m.Led f m.roster.stack.tail x := led_after hSlot hFront hTask
  have hDue : ∀ ds, x.Due m.board.preflight ds ↔ due ds := by
    intro ds
    rw [Task.Due, Profile.expired_iff, Profile.limit_eq]
    rfl
  have hNotDue : ∀ {dts}, (∀ ds ≠ [], ds <+: dts → ¬ due ds) →
      ∀ ds ≠ [], ds <+: dts → ¬ x.Due m.board.preflight ds :=
    fun h ds hNil hPrefix => mt (hDue ds).mp (h ds hNil hPrefix)
  have hStays : ∀ dts ≠ [], (∀ ds ≠ [], ds <+: dts → ¬ due ds) → stays dts := by
    intro dts hNil hNever
    exact hLed.run_stays hNil (hNotDue hNever)
  refine ⟨?_, hStays, fun before dt hNever hLast => ⟨?_, ?_⟩⟩
  · have hPhase := hLed.phase
    cases hCase : x.phase <;> simp_all
  · intro ds hNil hPrefix
    exact hStays ds hNil fun ds' hNil' hPrefix' => hNever ds' hNil' (hPrefix'.trans hPrefix)
  · intro last r
    obtain ⟨hBoard, -, y, hLater, hProfile, -, hSpent⟩ := hLed.run (hNotDue hNever)
    have hEnd : y.Due (m.run (before.map .tick)).mission.board.preflight [dt] := by
      rw [Task.Due, hBoard, hProfile, hSpent]
      exact (hDue _).mpr hLast
    obtain ⟨hEvents, hClosed, hRelieved, hLeft⟩ := hLater.ends hEnd
    have hName : y.name = x.name := congrArg Profile.name hProfile
    have hAfter : after p b (ops ++ before.map .tick) = (m.run (before.map .tick)).mission :=
      after_append _ _
    rw [← hAfter] at hLeft
    obtain ⟨hRest, hIdle, hNoIdle⟩ := stack_tick_of_left hLeft
    rw [hAfter] at hRest hIdle hNoIdle
    exact ⟨hName ▸ hEvents, hClosed, hRelieved.inactive, hRest, hIdle, hNoIdle, hRelieved.fresh⟩

/-- A preflight that the board limits to two ticks, though the plan allows it a minute. -/
theorem undisturbed_front_preflight :
    let e : Entry := { name := "preflight", params := .ofList [("duration_sec", .number 60)] }
    let p : Plan := { sequence := [e, { name := "route" }] }
    let ops : List Op := [.preflight (some 1)]
    (after p {} ops).board.request = "" ∧ (after p {} ops).roster.stack = [0, 1] ∧
      ((after p {} ops).run ([(0.5 : Float32)].map .tick)).mission.roster.stack =
        (after p {} ops).roster.stack ∧
      let last := ((after p {} ops).run ([(0.5 : Float32)].map .tick)).mission.tick 0.5
      closed last.report.calls = [0] ∧ last.mission.roster.stack = (after p {} ops).roster.stack.tail := by
  intro e p ops
  have hSlot : (after p {} ops).board.request = "" := by decide +kernel
  have hStack : (after p {} ops).roster.stack = [0, 1] := by decide +kernel
  have hTask : (after p {} ops).roster.task? 0 =
    some { profile := .ofEntry .preflight e, phase := .active } := by rfl
  have hLimit : ((after p {} ops).board.preflight <|> (Profile.ofEntry .preflight e).duration) =
      some 1 := by
    rw [show (after p {} ops).board.preflight = some 1 from by decide +kernel]
    rfl
  have hNotDue : ∀ ds ≠ [], ds <+: [(0.5 : Float32)] →
      ¬ ∃ l, ((after p {} ops).board.preflight <|> (Profile.ofEntry .preflight e).duration) = some l ∧
        l ≤ ds.foldl (· + ·) 0 := by
    rintro ds hNil ⟨t, hAppend⟩ ⟨l, hSome, hLe⟩
    rw [hLimit] at hSome
    cases ds with
    | nil => exact hNil rfl
    | cons d ds =>
      obtain ⟨rfl, hNone⟩ := List.cons.inj hAppend
      obtain ⟨rfl, -⟩ := List.append_eq_nil_iff.mp hNone
      cases hSome
      exact absurd hLe (by decide +kernel)
  obtain ⟨-, hStays, hEnds⟩ := undisturbed_front p {} ops hSlot (by decide +kernel) hTask
  obtain ⟨-, -, hClosed, -, hRest, -⟩ := hEnds [0.5] 0.5 hNotDue ⟨1, hLimit, by decide +kernel⟩
  exact ⟨hSlot, hStack, (hStays [0.5] (by simp) hNotDue).1, hClosed, hRest (by rw [hStack]; simp)⟩

end Mission

end Sortie
