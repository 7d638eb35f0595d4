import Sortie.Task.Basic

/-!
# The roster

All tasks of a mission in one list, and three lists of positions in it: the
global tasks, the standby catalog, and the sequential stack with its front
first. A standby task may stand on the stack several times at once; all these
entries are the same task.
-/

namespace Sortie

/-- The position of a task in the roster. -/
abbrev TaskId := Nat

/-- How a request names the standby task that it wants. -/
inductive Target where
  | name (key : String)
  | nickname (key : String)
deriving DecidableEq, Repr

namespace Target

def key : Target → String
  | name k => k
  | nickname k => k

def label : Target → String
  | name _ => "name"
  | nickname _ => "nickname"

def fits : Target → Task → Bool
  | name k, t => t.name = k
  | nickname k, t => t.nickname = k

end Target

structure Roster where
  tasks : List Task := []
  globals : List TaskId := []
  standby : List TaskId := []
  stack : List TaskId := []
deriving DecidableEq

namespace Roster

def size (r : Roster) : Nat := r.tasks.length

def task? (r : Roster) (id : TaskId) : Option Task := r.tasks[id]?

def modify (id : TaskId) (f : Task → Task) (r : Roster) : Roster :=
  { r with tasks := r.tasks.modify id f }

/-- Adds a task at the end of the roster and of its group; its position is the former size. -/
def insert (g : Group) (t : Task) (r : Roster) : Roster :=
  let r' := { r with tasks := r.tasks ++ [t] }
  match g with
  | .global => { r' with globals := r.globals ++ [r.size] }
  | .sequential => { r' with stack := r.stack ++ [r.size] }
  | .standby => { r' with standby := r.standby ++ [r.size] }

def front? (r : Roster) : Option TaskId := r.stack.head?

def frontTask? (r : Roster) : Option Task := r.front?.bind r.task?

def push (id : TaskId) (r : Roster) : Roster := { r with stack := id :: r.stack }

/-- Takes the front off the stack and closes it. -/
def pop (r : Roster) : Roster :=
  match r.stack with
  | [] => r
  | id :: rest => { r.modify id Task.close with stack := rest }

def firstMatch (r : Roster) (ids : List TaskId) (p : Task → Bool) : Option TaskId :=
  ids.find? fun id => (r.task? id).any p

/-- The first standby task that fits; an empty key fits none. -/
def find? (r : Roster) (t : Target) : Option TaskId :=
  if t.key = "" then none else r.firstMatch r.standby t.fits

def findGlobal? (r : Roster) (name : String) : Option TaskId :=
  r.firstMatch r.globals (·.name = name)

/-- The entry of the stack with the given name that is nearest to the front. -/
def findSequential? (r : Roster) (name : String) : Option TaskId :=
  r.firstMatch r.stack (·.name = name)

def names (r : Roster) (ids : List TaskId) : List String :=
  ids.filterMap fun id => (r.task? id).map Task.name

section

variable (r : Roster) (id : TaskId) (f : Task → Task)

@[simp] theorem stack_modify : (r.modify id f).stack = r.stack := rfl

@[simp] theorem globals_modify : (r.modify id f).globals = r.globals := rfl

@[simp] theorem standby_modify : (r.modify id f).standby = r.standby := rfl

@[simp] theorem size_modify : (r.modify id f).size = r.size := by
  simp [size, modify]

theorem task?_modify (j : TaskId) :
    (r.modify id f).task? j = if id = j then (r.task? j).map f else r.task? j := by
  simp only [task?, modify, List.getElem?_modify]
  split <;> simp

@[simp] theorem stack_push : (r.push id).stack = id :: r.stack := rfl

@[simp] theorem task?_push (j : TaskId) : (r.push id).task? j = r.task? j := rfl

@[simp] theorem stack_pop : r.pop.stack = r.stack.tail := by
  unfold pop; split <;> simp [*]

end

end Roster

end Sortie
