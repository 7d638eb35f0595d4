import Sortie.Mission.Request

/-!
# Ticks

One tick processes the pending command, updates the global tasks, drives the
front of the stack, and falls back to the idle task when the stack is empty.
-/

namespace Sortie.Mission

def successText (text : String) : String := "successful: " ++ text

def failureText (text : String) : String := "syntax error: " ++ text

/-- Carries out one text, and publishes whether it was a command. -/
def execute (text : String) (m : Mission) : Outcome :=
  match Command.parse text with
  | .ok c =>
    ((m.emit (.accepted text)).andThen (·.perform c.request)).andThen fun m =>
      (m.write (·.setResult (successText text))).stay
  | .error e =>
    (m.emit (.refused e text)).andThen fun m =>
      (m.write (·.setResult (failureText text))).stay

/-- Takes the pending command from its slot and carries it out; does nothing when none waits. -/
def processCommand (m : Mission) : Outcome :=
  if m.board.request = "" then m.stay
  else (m.write Board.clearRequest).execute m.board.request

def updateAll (dt : Float32) : List TaskId → Mission → Outcome
  | [], m => m.stay
  | id :: ids, m => (m.update dt id).andThen (updateAll dt ids)

def updateGlobals (dt : Float32) (m : Mission) : Outcome :=
  m.updateAll dt m.roster.globals

/-- Activates the front that a finished task leaves behind. -/
def handOver (m : Mission) : Outcome :=
  match m.roster.front? with
  | none => m.stay
  | some id => (m.activate id).andThen fun m =>
    match m.roster.task? id with
    | some t => m.emit (.next t.name)
    | none => m.stay

/-- Asks the front whether it is complete, and if so retires it and hands over. -/
def retireFront (id : TaskId) (m : Mission) : Outcome :=
  (Outcome.mk m (.call id .isComplete)).andThen fun m =>
    match m.roster.task? id with
    | some t =>
      if t.isComplete then ((m.emit (.finished t.name)).andThen pop).andThen handOver else m.stay
    | none => m.stay

/-- A front that is inactive was closed through another entry of the stack; it starts afresh. -/
def wake (id : TaskId) (m : Mission) : Outcome :=
  if (m.roster.task? id).any (·.phase = .inactive) then m.activate id else m.stay

def driveFront (dt : Float32) (m : Mission) : Outcome :=
  match m.roster.front? with
  | none => m.stay
  | some id =>
    let name := ((m.roster.task? id).map Task.name).getD m.board.current
    (((m.write (·.setCurrent name)).wake id).andThen (·.update dt id)).andThen (·.retireFront id)

def fallBack (m : Mission) : Outcome :=
  if m.roster.stack = [] then m.order .idle else m.stay

def tick (dt : Float32) (m : Mission) : Outcome :=
  ((m.processCommand.andThen (·.updateGlobals dt)).andThen (·.driveFront dt)).andThen fallBack

end Sortie.Mission
