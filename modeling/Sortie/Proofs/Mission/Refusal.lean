import Sortie.Proofs.Mission.Postings

/-!
# Refused commands

No later stage of a tick reads the result slot. So a tick that refuses a text
goes on like a tick without a command, and the two differ in the posted result
and in one event.
-/

namespace Sortie

/-- A write that neither the tasks nor the front take notice of. -/
structure Board.Aside (f : Board → Board) : Prop where
  preflight : ∀ b, (f b).preflight = b.preflight
  current : ∀ b, (f b).current = b.current
  setCurrent : ∀ b name, f (b.setCurrent name) = (f b).setCurrent name

theorem Board.aside_setResult (text : String) : Aside (setResult text) where
  preflight _ := rfl
  current _ := rfl
  setCurrent _ _ := rfl

namespace Outcome

theorem andThen_assoc (o : Outcome) (f g : Mission → Outcome) :
    (o.andThen f).andThen g = o.andThen fun m => (f m).andThen g := by
  simp only [andThen, Report.append_assoc]

theorem write_andThen {f : Board → Board} {g : Mission → Outcome}
    (h : ∀ m, g (m.write f) = (g m).write f) (o : Outcome) :
    (o.write f).andThen g = (o.andThen g).write f := by
  simp only [andThen, mission_write, report_write, h]
  rfl

end Outcome

namespace Mission

def proceed (dt : Float32) (m : Mission) : Outcome :=
  ((m.updateGlobals dt).andThen (·.driveFront dt)).andThen fallBack

theorem tick_eq_proceed (m : Mission) (dt : Float32) :
    m.tick dt = m.processCommand.andThen (·.proceed dt) := by
  simp only [tick, proceed, Outcome.andThen_assoc]

variable {f : Board → Board} (m : Mission) (dt : Float32)

theorem handOver_write : (m.write f).handOver = m.handOver.write f := by
  rw [handOver, handOver, roster_write]
  cases m.roster.front? with
  | none => rfl
  | some id =>
    refine Outcome.write_andThen (fun n => ?_) (m.activate id)
    rw [roster_write]
    cases n.roster.task? id <;> rfl

theorem retireFront_write (id : TaskId) : (m.write f).retireFront id = (m.retireFront id).write f := by
  refine Outcome.write_andThen (fun n => ?_) ⟨m, .call id .isComplete⟩
  rw [roster_write]
  cases n.roster.task? id with
  | none => rfl
  | some x =>
    dsimp only
    split
    · have hPop := Outcome.write_andThen (fun k => k.pop_write f) (n.emit (.finished x.name))
      rw [← Outcome.write_andThen handOver_write, ← hPop]
      rfl
    · rfl

theorem wake_write (id : TaskId) : (m.write f).wake id = (m.wake id).write f := by
  rw [wake, wake, roster_write]
  split <;> rfl

theorem fallBack_write : (m.write f).fallBack = m.fallBack.write f := by
  rw [fallBack, fallBack, roster_write]
  split
  · exact m.engage_write _ f
  · rfl

section

variable (hAside : Board.Aside f)

include hAside

theorem update_write (id : TaskId) : (m.write f).update dt id = (m.update dt id).write f := by
  rw [update, update, board_write, hAside.preflight]
  rfl

theorem updateAll_write (ids : List TaskId) :
    (m.write f).updateAll dt ids = (m.updateAll dt ids).write f := by
  induction ids generalizing m with
  | nil => rfl
  | cons id ids ih =>
    rw [updateAll, updateAll, update_write m dt hAside]
    exact Outcome.write_andThen (fun n => ih n) _

theorem driveFront_write : (m.write f).driveFront dt = (m.driveFront dt).write f := by
  rw [driveFront, driveFront, roster_write]
  cases m.roster.front? with
  | none => rfl
  | some id =>
    simp only [board_write, hAside.current]
    -- the name is read off the roster, or off a slot that the write keeps
    generalize ((m.roster.task? id).map Task.name).getD m.board.current = name
    have hName : (m.write f).write (·.setCurrent name) = (m.write (·.setCurrent name)).write f := by
      simp only [write, hAside.setCurrent]
    rw [hName, wake_write, Outcome.write_andThen (fun n => update_write n dt hAside id),
      Outcome.write_andThen fun n => retireFront_write n id]

theorem proceed_write : (m.write f).proceed dt = (m.proceed dt).write f := by
  have hGlobals : (m.write f).updateGlobals dt = (m.updateGlobals dt).write f :=
    m.updateAll_write dt hAside _
  rw [proceed, hGlobals, Outcome.write_andThen fun n => driveFront_write n dt hAside,
    Outcome.write_andThen fallBack_write]
  rfl

end

theorem tick_of_quiet (h : m.board.request = "") : m.tick dt = m.proceed dt := by
  rw [tick_eq_proceed, processCommand_of_nil h, Outcome.andThen]
  simp only [mission_stay, report_stay, Report.empty_append]

theorem tick_of_refused {text : String} {e : CommandError} (hText : text ≠ "")
    (hParse : Command.parse text = .error e) :
    (m.write (·.submit text)).tick dt =
      ⟨((m.write Board.clearRequest).proceed dt).mission.write (·.setResult (failureText text)),
        .event (.refused e text) ++ ((m.write Board.clearRequest).proceed dt).report⟩ := by
  have hCommand : (m.write (·.submit text)).processCommand =
      ⟨(m.write Board.clearRequest).write (·.setResult (failureText text)),
        .event (.refused e text)⟩ :=
    processCommand_of_error (m := m.write (·.submit text)) hText hParse
  rw [tick_eq_proceed, hCommand, Outcome.andThen,
    proceed_write _ dt (Board.aside_setResult (failureText text))]
  rfl

/--
A tick with a text that is no command differs from the same tick without one in
the posted result and in a fault that is reported first, and in nothing else.
-/
theorem refusal_invisible (m : Mission) (text : String) (e : CommandError) (dt : Float32)
    (hText : text ≠ "") (hParse : Command.parse text = .error e) :
    let refused := (m.write (·.submit text)).tick dt
    let quiet := (m.write Board.clearRequest).tick dt
    refused.mission.roster = quiet.mission.roster ∧
    refused.mission.board = { quiet.mission.board with result := "syntax error: " ++ text } ∧
    quiet.mission.board.result = m.board.result ∧
    refused.mission.board.request = "" ∧ quiet.mission.board.request = "" ∧
    refused.report.calls = quiet.report.calls ∧
    ∃ fault : Event, fault.category = .fault ∧ fault.message = e.message ++ ": " ++ text ∧
      refused.report.events = fault :: quiet.report.events := by
  intro refused quiet
  have hRefused : refused = _ := m.tick_of_refused dt hText hParse
  have hQuiet : quiet = (m.write Board.clearRequest).proceed dt := tick_of_quiet _ dt rfl
  have hRequest : quiet.mission.board.request = "" := request_tick _ dt
  rw [← hQuiet] at hRefused
  have hBoard : refused.mission.board = quiet.mission.board.setResult (failureText text) := by
    rw [hRefused]
    rfl
  refine ⟨?_, hBoard, ?_, ?_, hRequest, ?_, .refused e text, rfl, rfl, ?_⟩
  · rw [hRefused]
    rfl
  · calc quiet.mission.board.result
      _ = (m.write Board.clearRequest).processCommand.mission.board.result := result_tick _ dt
      _ = m.board.result := by
        rw [processCommand_of_nil rfl]
        rfl
  · rw [hBoard]
    exact hRequest
  · rw [hRefused]
    rfl
  · rw [hRefused]
    rfl

/-- A `pop` with an argument takes nothing off the stack, and the tick ends the task all the same. -/
theorem refusal_invisible_pop :
    let p : Plan := {
      globals := [{ name := "camera" }]
      sequence := [{ name := "preflight" }, { name := "route" }]
      standby := [{ name := "idle" }] }
    let m := ((launch p {}).mission.run [.preflight (some 0.5)]).mission
    let refused := (m.write (·.submit "task, pop,now")).tick 0.5
    let quiet := (m.write Board.clearRequest).tick 0.5
    Command.parse "task, pop,now" = .error .badArity ∧
      refused.mission.roster = quiet.mission.roster ∧ refused.mission.roster.stack = [2] ∧
      refused.mission.board.result = "syntax error: task, pop,now" ∧
      refused.report.calls = quiet.report.calls := by
  intro p m refused quiet
  have hParse : Command.parse "task, pop,now" = .error .badArity := by rfl
  obtain ⟨hRoster, hBoard, -, -, -, hCalls, -⟩ :=
    refusal_invisible m "task, pop,now" .badArity 0.5 (by decide) hParse
  have hStack : refused.mission.roster.stack = [2] := by decide +kernel
  exact ⟨hParse, hRoster, hStack, congrArg Board.result hBoard, hCalls⟩

end Mission

end Sortie
