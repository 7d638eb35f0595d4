import Sortie.Proofs.Roster.Turns
import Sortie.Mission.Run

/-!
# The stages of a tick

Each stage of a tick is a turn, a round of the global tasks or a drive of the
front, and so a sequence of moves.
-/

namespace Sortie

namespace Roster

def pushes (r : Roster) (t : Target) : List TaskId :=
  match r.seek t with
  | .standby id => [id]
  | _ => []

end Roster

def Request.pushes (r : Roster) : Request → List TaskId
  | .order o => r.pushes o.target
  | _ => []

namespace Mission

variable (m : Mission)

def pending? (m : Mission) : Option Request :=
  if m.board.request = "" then none
  else match Command.parse m.board.request with
    | .ok c => some c.request
    | .error _ => none

def commandPushes (m : Mission) : List TaskId :=
  match m.pending? with
  | some req => req.pushes m.roster
  | none => []

def fallBackPushes (m : Mission) : List TaskId :=
  if m.roster.stack = [] then (m.roster.find? (.name Order.idleName)).toList else []

/-! ## Turns -/

theorem engage_turn (t : Target) :
    m.roster.Turn (m.roster.pushes t) (m.engage t).report.calls (m.engage t).mission.roster := by
  rw [engage, Roster.pushes]
  cases h : m.roster.seek t with
  | atFront => exact .keep
  | standby id => exact .push h
  | nowhere => exact .keep

theorem pop_turn : m.roster.Turn [] m.pop.report.calls m.pop.mission.roster := by
  rw [pop]
  split
  · exact .keep
  · exact .pop ‹_›

theorem resume_turn : m.roster.Turn [] m.resume.report.calls m.resume.mission.roster := by
  rw [resume]
  split
  · exact m.pop_turn
  · exact .keep

theorem perform_turn (req : Request) :
    m.roster.Turn (req.pushes m.roster) (m.perform req).report.calls
      (m.perform req).mission.roster := by
  cases req with
  | order o => exact (m.write (o.publish (m.roster.seek o.target))).engage_turn o.target
  | resume => exact m.resume_turn
  | pop => exact m.pop_turn

theorem processCommand_turn :
    m.roster.Turn m.commandPushes m.processCommand.report.calls m.processCommand.mission.roster := by
  by_cases hEmpty : m.board.request = ""
  · simp only [processCommand, commandPushes, pending?, if_pos hEmpty]
    exact .keep
  · cases hParse : Command.parse m.board.request with
    | ok c =>
      simp only [processCommand, commandPushes, pending?, if_neg hEmpty, hParse, execute]
      simpa using (m.write Board.clearRequest).perform_turn c.request
    | error e =>
      simp only [processCommand, commandPushes, pending?, if_neg hEmpty, hParse, execute]
      exact .keep

theorem fallBack_eq_stay (hStack : m.roster.stack ≠ []) : m.fallBack = m.stay := by
  rw [fallBack, if_neg hStack]

theorem fallBack_eq (hStack : m.roster.stack = []) :
    m.fallBack = match m.roster.find? (.name Order.idleName) with
      | some id => m.push id
      | none => m.emit (.missing (.name Order.idleName)) := by
  have hOrder : m.order .idle = m.engage (.name Order.idleName) := rfl
  rw [fallBack, if_pos hStack, hOrder, engage]
  cases hFind : m.roster.find? (.name Order.idleName) with
  | some id => rw [Roster.seek_eq_standby_of_nil hStack hFind]
  | none => rw [Roster.seek_eq_nowhere_of_nil hStack hFind]

theorem fallBack_turn :
    m.roster.Turn m.fallBackPushes m.fallBack.report.calls m.fallBack.mission.roster := by
  rw [fallBackPushes]
  split
  · rename_i hStack
    rw [fallBack_eq m hStack]
    cases hFind : m.roster.find? (.name Order.idleName) with
    | some id => exact .push (Roster.seek_eq_standby_of_nil hStack hFind)
    | none => exact .keep
  · rename_i hStack
    rw [fallBack_eq_stay m hStack]
    exact .keep

theorem calls_fallBack : m.fallBack.report.calls = m.fallBackPushes.map fun id => ⟨id, .activate⟩ := by
  rw [fallBackPushes]
  split
  · rename_i hStack
    rw [fallBack_eq m hStack]
    cases m.roster.find? (.name Order.idleName) with
    | some id => rfl
    | none => rfl
  · rename_i hStack
    rw [fallBack_eq_stay m hStack]
    rfl

theorem stack_fallBack : m.fallBack.mission.roster.stack = m.fallBackPushes ++ m.roster.stack := by
  rw [fallBackPushes]
  split
  · rename_i hStack
    rw [fallBack_eq m hStack]
    cases m.roster.find? (.name Order.idleName) with
    | some id => rfl
    | none => rfl
  · rename_i hStack
    rw [fallBack_eq_stay m hStack]
    rfl

/-! ## The global tasks -/

section

variable (dt : Float32) (ids : List TaskId)

@[simp] theorem stack_updateAll : (m.updateAll dt ids).mission.roster.stack = m.roster.stack := by
  induction ids generalizing m with
  | nil => rfl
  | cons id ids ih => exact ih (m.update dt id).mission

@[simp] theorem board_updateAll : (m.updateAll dt ids).mission.board = m.board := by
  induction ids generalizing m with
  | nil => rfl
  | cons id ids ih => exact ih (m.update dt id).mission

@[simp] theorem calls_updateAll :
    (m.updateAll dt ids).report.calls = ids.map fun id => ⟨id, .update⟩ := by
  induction ids generalizing m with
  | nil => rfl
  | cons id ids ih => exact congrArg (⟨id, .update⟩ :: ·) (ih (m.update dt id).mission)

theorem task?_updateAll {j : TaskId} (hj : j ∉ ids) :
    (m.updateAll dt ids).mission.roster.task? j = m.roster.task? j := by
  induction ids generalizing m with
  | nil => rfl
  | cons id ids ih =>
    rw [List.mem_cons, not_or] at hj
    exact (ih (m.update dt id).mission hj.2).trans
      (Roster.task?_modify_of_ne _ _ _ (Ne.symm hj.1))

theorem updateAll_moves (hIds : ∀ id ∈ ids, id ∈ m.roster.globals) :
    m.roster.Moves [] (m.updateAll dt ids).report.calls (m.updateAll dt ids).mission.roster := by
  induction ids generalizing m with
  | nil => exact .nil m.roster
  | cons id ids ih =>
    have hRest := ih (m.update dt id).mission fun j hj => hIds j (List.mem_cons_of_mem _ hj)
    exact .cons (.updateGlobal (hIds id List.mem_cons_self) dt m.board.preflight) hRest

end

/-! ## The front -/

variable {m : Mission} {id : TaskId} {rest : List TaskId} {x : Task} {dt : Float32}

theorem wake_eq (hTask : m.roster.task? id = some x) :
    m.wake id = ⟨m.arrange (·.modify id Task.rouse),
      ⟨if x.phase = .inactive then [⟨id, .activate⟩] else [], []⟩⟩ := by
  rw [wake, hTask]
  by_cases hPhase : x.phase = .inactive
  · have hRouse := Roster.modify_congr (f := Task.rouse) (g := Task.activate) hTask
      (by rw [Task.rouse, if_pos hPhase])
    simp only [Option.any_some, hPhase, decide_true, if_true, activate, arrange, hRouse]
    rfl
  · have hRouse := Roster.modify_eq_self (f := Task.rouse) hTask (by rw [Task.rouse, if_neg hPhase])
    simp only [Option.any_some, hPhase, decide_false, if_false, Bool.false_eq_true, stay, arrange, hRouse]
    rfl

theorem pop_eq (hStack : m.roster.stack = id :: rest) :
    m.pop = ⟨m.arrange Roster.pop, .call id .close⟩ := by
  simp only [pop, hStack]

theorem handOver_eq_stay (hStack : m.roster.stack = []) : m.handOver = m.stay := by
  simp only [handOver, Roster.front?, hStack, List.head?_nil]

theorem handOver_eq (hStack : m.roster.stack = id :: rest) (hTask : m.roster.task? id = some x) :
    m.handOver = ⟨m.arrange (·.modify id Task.activate), ⟨[⟨id, .activate⟩], [.next x.name]⟩⟩ := by
  simp only [handOver, Roster.front?, hStack, List.head?_cons, Outcome.andThen, activate,
    roster_arrange, Roster.task?_modify_self, hTask, Option.map_some]
  rfl

theorem retireFront_eq (hTask : m.roster.task? id = some x) (hPhase : x.phase ≠ .complete) :
    m.retireFront id = ⟨m, ⟨[⟨id, .isComplete⟩], []⟩⟩ := by
  simp only [retireFront, Outcome.andThen, hTask, Task.isComplete, hPhase, decide_false,
    Bool.false_eq_true, if_false]
  rfl

theorem retireFront_eq_andThen (hTask : m.roster.task? id = some x) (hPhase : x.phase = .complete) :
    m.retireFront id = ((Outcome.mk m ⟨[⟨id, .isComplete⟩], [.finished x.name]⟩).andThen pop).andThen
      handOver := by
  simp only [retireFront, Outcome.andThen, hTask, Task.isComplete, hPhase, decide_true, if_true,
    ← Report.append_assoc]
  rfl

theorem driveFront_eq (hStack : m.roster.stack = id :: rest) (hTask : m.roster.task? id = some x) :
    m.driveFront dt = (Outcome.mk
      ((m.write (·.setCurrent x.name)).arrange (·.modify id (Task.drive dt m.board.preflight)))
      ⟨(if x.phase = .inactive then [⟨id, .activate⟩] else []) ++ [⟨id, .update⟩], []⟩).andThen
        (·.retireFront id) := by
  simp only [driveFront, Roster.front?, hStack, List.head?_cons, hTask, Option.map_some,
    Option.getD_some]
  rw [wake_eq (m := m.write _) hTask]
  simp only [Outcome.andThen, update, arrange, Roster.modify_modify]
  rfl

theorem driveFront_drive (hSound : m.roster.Sound) (dt : Float32) :
    m.roster.Drive dt m.board.preflight (m.driveFront dt).report (m.driveFront dt).mission.roster := by
  cases hStack : m.roster.stack with
  | nil =>
    have hStay : m.driveFront dt = m.stay := by
      simp only [driveFront, Roster.front?, hStack, List.head?_nil]
    rw [hStay]
    exact .absent hStack
  | cons id rest =>
    obtain ⟨x, hTask⟩ := hSound.exists_task? (show id ∈ m.roster.stack by simp [hStack])
    rw [driveFront_eq hStack hTask]
    generalize hDriven :
      (m.write (·.setCurrent x.name)).arrange (·.modify id (Task.drive dt m.board.preflight)) = n
    have hRoster : n.roster = m.roster.modify id (Task.drive dt m.board.preflight) := by
      rw [← hDriven]
      rfl
    have hTask' : n.roster.task? id = some (x.drive dt m.board.preflight) := by
      rw [hRoster, Roster.task?_modify_self, hTask, Option.map_some]
    have hStack' : n.roster.stack = id :: rest := by
      rw [hRoster, Roster.stack_modify, hStack]
    by_cases hPhase : (x.drive dt m.board.preflight).phase = .complete
    · rw [Outcome.andThen, retireFront_eq_andThen hTask' hPhase]
      simp only [Outcome.andThen, pop_eq hStack']
      have hPop := Roster.stack_pop_of_eq _ _ hStack'
      cases rest with
      | nil =>
        rw [handOver_eq_stay (m := n.arrange Roster.pop) hPop]
        have hEnds := Roster.Drive.ends hStack hTask hPhase
        rw [← hRoster, Task.driveCalls] at hEnds
        simpa [Report.mk_append_mk, Report.call] using hEnds
      | cons next rest =>
        obtain ⟨y, hNext⟩ := hSound.exists_task? (show next ∈ m.roster.stack by simp [hStack])
        obtain ⟨z, hNext', hName⟩ :=
          (Roster.Akin.of_drive_pop id dt m.board.preflight).exists_task? hNext
        rw [← hRoster] at hNext'
        rw [handOver_eq (m := n.arrange Roster.pop) hPop hNext']
        have hHandsOver := Roster.Drive.handsOver hStack hTask hPhase hNext
        rw [← hRoster, Task.driveCalls] at hHandsOver
        simpa [Report.mk_append_mk, Report.call, Task.name, hName] using hHandsOver
    · rw [Outcome.andThen, retireFront_eq hTask' hPhase]
      have hGoesOn := Roster.Drive.goesOn hStack hTask hPhase
      rw [← hRoster, Task.driveCalls] at hGoesOn
      simpa [Report.mk_append_mk] using hGoesOn

/-! ## The tick -/

def untilFront (dt : Float32) (m : Mission) : Outcome :=
  m.processCommand.andThen (·.updateGlobals dt)

def untilFallBack (dt : Float32) (m : Mission) : Outcome :=
  (m.untilFront dt).andThen (·.driveFront dt)

theorem tick_eq (dt : Float32) : m.tick dt = (m.untilFallBack dt).andThen fallBack := rfl

theorem tick_eq_untilFallBack (hStack : (m.untilFallBack dt).mission.roster.stack ≠ []) :
    m.tick dt = m.untilFallBack dt := by
  rw [tick_eq, Outcome.andThen, fallBack_eq_stay _ hStack]
  simp only [mission_stay, report_stay, Report.append_empty]

variable (m dt)

@[simp] theorem stack_untilFront :
    (m.untilFront dt).mission.roster.stack = m.processCommand.mission.roster.stack :=
  stack_updateAll _ _ _

@[simp] theorem board_untilFront : (m.untilFront dt).mission.board = m.processCommand.mission.board :=
  board_updateAll _ _ _

theorem calls_untilFront :
    (m.untilFront dt).report.calls =
      m.processCommand.report.calls ++ m.roster.globals.map fun id => ⟨id, .update⟩ := by
  rw [untilFront, Outcome.report_andThen, Report.calls_append, updateGlobals, calls_updateAll,
    m.processCommand_turn.moves.akin.globals]

theorem task?_untilFront (hId : id ∉ m.roster.globals) :
    (m.untilFront dt).mission.roster.task? id = m.processCommand.mission.roster.task? id := by
  apply task?_updateAll
  rwa [m.processCommand_turn.moves.akin.globals]

theorem untilFront_moves :
    m.roster.Moves m.commandPushes (m.untilFront dt).report.calls (m.untilFront dt).mission.roster := by
  have hGlobals := updateAll_moves m.processCommand.mission dt m.processCommand.mission.roster.globals
    fun _ hId => hId
  have hMoves := m.processCommand_turn.moves.trans hGlobals
  rw [List.append_nil] at hMoves
  exact hMoves

theorem untilFallBack_drive (hSound : m.roster.Sound) :
    (m.untilFront dt).mission.roster.Drive dt m.processCommand.mission.board.preflight
      ((m.untilFront dt).mission.driveFront dt).report (m.untilFallBack dt).mission.roster := by
  have hDrive := driveFront_drive ((m.untilFront_moves dt).sound hSound) dt
  rwa [board_untilFront] at hDrive

theorem untilFallBack_moves (hSound : m.roster.Sound) :
    m.roster.Moves m.commandPushes (m.untilFallBack dt).report.calls
      (m.untilFallBack dt).mission.roster := by
  have hMoves := (m.untilFront_moves dt).trans (m.untilFallBack_drive dt hSound).moves
  rw [List.append_nil] at hMoves
  exact hMoves

theorem tick_moves (hSound : m.roster.Sound) :
    m.roster.Moves (m.commandPushes ++ (m.untilFallBack dt).mission.fallBackPushes)
      (m.tick dt).report.calls (m.tick dt).mission.roster :=
  (m.untilFallBack_moves dt hSound).trans (m.untilFallBack dt).mission.fallBack_turn.moves

end Mission

end Sortie
