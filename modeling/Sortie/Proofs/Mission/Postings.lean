import Sortie.Proofs.Mission.Stages

/-!
# What a mission writes on the board

A command empties its slot, carries out its request and posts its result; a
request writes parameters of tasks; a tick then posts the name of the front that
it drives, and nothing else.
-/

namespace Sortie

theorem Command.parse_empty : Command.parse "" = .error .empty := by
  rfl

theorem Command.ne_empty_of_parse {text : String} {c : Command} (h : Command.parse text = .ok c) :
    text ≠ "" := by
  rintro rfl
  rw [parse_empty] at h
  cases h

namespace Order

variable (w : Whereabouts) (o : Order) (b : Board)

@[simp] theorem request_publish : (o.publish w b).request = b.request := by
  cases o <;> cases w <;> rfl

@[simp] theorem current_publish : (o.publish w b).current = b.current := by
  cases o <;> cases w <;> rfl

end Order

namespace Request

def publish (r : Roster) : Request → Board → Board
  | .order o, b => o.publish (r.seek o.target) b
  | _, b => b

def faults (r : Roster) : Request → List Event
  | .order o =>
    match r.seek o.target with
    | .nowhere => [.missing o.target]
    | _ => []
  | _ => []

variable (r : Roster) (req : Request) (b : Board)

@[simp] theorem request_publish : (req.publish r b).request = b.request := by
  cases req <;> simp [publish]

@[simp] theorem current_publish : (req.publish r b).current = b.current := by
  cases req <;> simp [publish]

theorem eq_missing_of_mem_faults {e : Event} (h : e ∈ req.faults r) : ∃ t, e = .missing t := by
  cases req with
  | order o =>
    rw [faults] at h
    split at h
    · exact ⟨o.target, List.mem_singleton.mp h⟩
    · simp at h
  | resume | pop => simp [faults] at h

end Request

namespace Outcome

def write (f : Board → Board) (o : Outcome) : Outcome := ⟨o.mission.write f, o.report⟩

@[simp] theorem mission_write (f : Board → Board) (o : Outcome) :
    (o.write f).mission = o.mission.write f := rfl

@[simp] theorem report_write (f : Board → Board) (o : Outcome) : (o.write f).report = o.report := rfl

end Outcome

namespace Mission

variable (m : Mission)

/-! ## Requests -/

@[simp] theorem board_pop : m.pop.mission.board = m.board := by
  rw [pop]
  split <;> rfl

@[simp] theorem events_pop : m.pop.report.events = [] := by
  rw [pop]
  split <;> rfl

@[simp] theorem board_engage (t : Target) : (m.engage t).mission.board = m.board := by
  rw [engage]
  split <;> rfl

theorem events_engage (t : Target) :
    (m.engage t).report.events = match m.roster.seek t with
      | .nowhere => [.missing t]
      | _ => [] := by
  rw [engage]
  cases m.roster.seek t <;> rfl

theorem engage_write (t : Target) (f : Board → Board) :
    (m.write f).engage t = (m.engage t).write f := by
  rw [engage, engage, roster_write]
  cases m.roster.seek t <;> rfl

theorem pop_write (f : Board → Board) :
    (m.write f).pop = m.pop.write f := by
  rw [pop, pop, roster_write]
  cases m.roster.stack <;> rfl

theorem resume_write (f : Board → Board) :
    (m.write f).resume = m.resume.write f := by
  rw [resume, resume, roster_write, pop_write]
  split <;> rfl

theorem roster_perform_write (req : Request) (f : Board → Board) :
    ((m.write f).perform req).mission.roster = (m.perform req).mission.roster := by
  cases req with
  | order o => simp only [perform, order, engage_write, Outcome.mission_write, roster_write]
  | resume => simp only [perform, resume_write, Outcome.mission_write, roster_write]
  | pop => simp only [perform, pop_write, Outcome.mission_write, roster_write]

theorem report_perform_write (req : Request) (f : Board → Board) :
    ((m.write f).perform req).report = (m.perform req).report := by
  cases req with
  | order o => simp only [perform, order, engage_write, Outcome.report_write, roster_write]
  | resume => simp only [perform, resume_write, Outcome.report_write]
  | pop => simp only [perform, pop_write, Outcome.report_write]

theorem board_perform (req : Request) :
    (m.perform req).mission.board = req.publish m.roster m.board := by
  cases req with
  | order o => exact board_engage _ o.target
  | resume =>
    rw [perform, resume]
    split
    · exact m.board_pop
    · rfl
  | pop => exact m.board_pop

theorem events_perform (req : Request) : (m.perform req).report.events = req.faults m.roster := by
  cases req with
  | order o => exact events_engage _ o.target
  | resume =>
    rw [perform, resume]
    split
    · exact m.events_pop
    · rfl
  | pop => exact m.events_pop

/-! ## The command -/

/-- The slot is empty, holds a command, or holds a text that is none. -/
theorem command_cases : m.board.request = "" ∨ (∃ c, Command.parse m.board.request = .ok c) ∨
    m.board.request ≠ "" ∧ ∃ e, Command.parse m.board.request = .error e := by
  cases hParse : Command.parse m.board.request with
  | ok c => exact .inr (.inl ⟨c, rfl⟩)
  | error e =>
    by_cases hText : m.board.request = ""
    · exact .inl hText
    · exact .inr (.inr ⟨hText, e, rfl⟩)

section

variable {m}

theorem processCommand_of_nil (h : m.board.request = "") : m.processCommand = m.stay := by
  rw [processCommand, if_pos h]

theorem processCommand_of_ok {c : Command} (h : Command.parse m.board.request = .ok c) :
    m.processCommand = {
      mission := {
        roster := (m.perform c.request).mission.roster
        board := (c.request.publish m.roster m.board.clearRequest).setResult
          (successText m.board.request) }
      report := {
        calls := (m.perform c.request).report.calls
        events := .accepted m.board.request :: c.request.faults m.roster } } := by
  have hBoard := board_perform (m.write Board.clearRequest) c.request
  have hRoster := m.roster_perform_write c.request Board.clearRequest
  have hReport := m.report_perform_write c.request Board.clearRequest
  rw [roster_write, board_write] at hBoard
  rw [processCommand, if_neg (Command.ne_empty_of_parse h), execute, h, ← hBoard, ← hRoster,
    ← events_perform, ← hReport]
  simp only [Outcome.andThen, report_stay, Report.append_empty]
  rfl

theorem processCommand_of_error {e : CommandError} (hText : m.board.request ≠ "")
    (h : Command.parse m.board.request = .error e) :
    m.processCommand = {
      mission := m.write fun b => b.clearRequest.setResult (failureText b.request)
      report := .event (.refused e m.board.request) } := by
  rw [processCommand, if_neg hText, execute, h]
  rfl

end

/-! ## The front and the tick -/

@[simp] theorem board_handOver : m.handOver.mission.board = m.board := by
  rw [handOver]
  split
  · rfl
  · rw [Outcome.mission_andThen]
    split <;> rfl

@[simp] theorem board_retireFront (id : TaskId) : (m.retireFront id).mission.board = m.board := by
  rw [retireFront, Outcome.mission_andThen]
  split
  · split
    · simp
    · rfl
  · rfl

@[simp] theorem board_wake (id : TaskId) : (m.wake id).mission.board = m.board := by
  rw [wake]
  split <;> rfl

def frontName (m : Mission) : String :=
  (m.roster.frontTask?.map Task.name).getD m.board.current

theorem board_driveFront (dt : Float32) :
    (m.driveFront dt).mission.board = m.board.setCurrent m.frontName := by
  rw [driveFront, frontName, Roster.frontTask?]
  cases m.roster.front? with
  | none => rfl
  | some id =>
    simp only [Outcome.mission_andThen, board_retireFront]
    exact board_wake _ id

@[simp] theorem board_fallBack : m.fallBack.mission.board = m.board := by
  rw [fallBack]
  split
  · exact board_perform m (.order .idle)
  · rfl

theorem frontName_untilFront (dt : Float32) :
    (m.untilFront dt).mission.frontName = m.processCommand.mission.frontName := by
  have hAkin := (updateAll_moves m.processCommand.mission dt _ fun _ hId => hId).akin
  have hProfile := hAkin.map_frontTask? (stack_untilFront m dt)
  have hName := congrArg (Option.map Profile.name) hProfile
  rw [Option.map_map, Option.map_map] at hName
  rw [frontName, frontName, board_untilFront]
  exact congrArg (Option.getD · _) hName

theorem current_processCommand : m.processCommand.mission.board.current = m.board.current := by
  rcases m.command_cases with hText | ⟨c, hParse⟩ | ⟨hText, e, hParse⟩
  · rw [processCommand_of_nil hText, mission_stay]
  · rw [processCommand_of_ok hParse]
    exact Request.current_publish _ _ _
  · rw [processCommand_of_error hText hParse]
    rfl

theorem request_processCommand : m.processCommand.mission.board.request = "" := by
  rcases m.command_cases with hText | ⟨c, hParse⟩ | ⟨hText, e, hParse⟩
  · rw [processCommand_of_nil hText, mission_stay, hText]
  · rw [processCommand_of_ok hParse]
    exact Request.request_publish _ _ _
  · rw [processCommand_of_error hText hParse]
    rfl

theorem result_processCommand :
    m.processCommand.mission.board.result =
      if m.board.request = "" then m.board.result
      else match Command.parse m.board.request with
        | .ok _ => successText m.board.request
        | .error _ => failureText m.board.request := by
  rcases m.command_cases with hText | ⟨c, hParse⟩ | ⟨hText, e, hParse⟩
  · rw [if_pos hText, processCommand_of_nil hText, mission_stay]
  · rw [if_neg (Command.ne_empty_of_parse hParse), hParse, processCommand_of_ok hParse]
    rfl
  · rw [if_neg hText, hParse, processCommand_of_error hText hParse]
    rfl

theorem board_tick (dt : Float32) :
    (m.tick dt).mission.board =
      m.processCommand.mission.board.setCurrent m.processCommand.mission.frontName := by
  rw [tick_eq, Outcome.mission_andThen, board_fallBack, untilFallBack, Outcome.mission_andThen,
    board_driveFront, frontName_untilFront, board_untilFront]

theorem request_tick (dt : Float32) : (m.tick dt).mission.board.request = "" := by
  rw [board_tick]
  exact m.request_processCommand

theorem result_tick (dt : Float32) :
    (m.tick dt).mission.board.result = m.processCommand.mission.board.result := by
  rw [board_tick]
  rfl

end Mission

end Sortie
