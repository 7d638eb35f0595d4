import Sortie.Task.Basic
import Sortie.Board

/-!
# A task by itself

One task next to a board of its own, driven through any sequence of calls, also
sequences that no scheduler makes.
-/

namespace Sortie

structure Drill where
  task : Task
  board : Board := {}

namespace Drill

inductive Step where
  | activate
  | update (dt : Float32)
  | close
  /-- Sets the commanded preflight duration of the board. -/
  | preflight (duration : Option Float32)
deriving DecidableEq

def step (d : Drill) : Step → Drill
  | .activate => { d with task := d.task.activate }
  | .update dt => { d with task := d.task.update dt d.board.preflight }
  | .close => { d with task := d.task.close }
  | .preflight duration => { d with board := { d.board with preflight := duration } }

def run (d : Drill) (steps : List Step) : Drill :=
  steps.foldl step d

/-- The states before the first step and after each one. -/
def trace (d : Drill) : List Step → List Drill
  | [] => [d]
  | s :: rest => d :: (d.step s).trace rest

end Drill

end Sortie
