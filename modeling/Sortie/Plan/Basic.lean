import Sortie.Plan.Params

/-!
# Mission plans

A plan declares the tasks of a mission in three groups. The group under which
an entry stands decides which part the task plays.
-/

namespace Sortie

/-- `global` tasks always run, `sequential` ones form the first stack, `standby` ones wait for a request. -/
inductive Group where
  | global
  | sequential
  | standby
deriving DecidableEq, Repr

namespace Group

def label : Group → String
  | global => "global_tasks"
  | sequential => "sequential_tasks"
  | standby => "standby_tasks"

def all : List Group := [global, sequential, standby]

def labels : List String := all.map label

def ofLabel? (s : String) : Option Group := all.find? fun g => g.label = s

end Group

/-- One list for each group. -/
structure Groups (α : Type) where
  globals : List α := []
  /-- The front of the first stack comes first. -/
  sequence : List α := []
  standby : List α := []
deriving DecidableEq

namespace Groups

variable {α : Type}

def get (gs : Groups α) : Group → List α
  | .global => gs.globals
  | .sequential => gs.sequence
  | .standby => gs.standby

def set (g : Group) (l : List α) (gs : Groups α) : Groups α :=
  match g with
  | .global => { gs with globals := l }
  | .sequential => { gs with sequence := l }
  | .standby => { gs with standby := l }

@[simp] theorem get_set_self (g : Group) (l : List α) (gs : Groups α) : (gs.set g l).get g = l := by
  cases g <;> rfl

theorem get_set_of_ne {g h : Group} (l : List α) (gs : Groups α) (hne : g ≠ h) :
    (gs.set g l).get h = gs.get h := by
  cases g <;> cases h <;> simp_all [get, set]

end Groups

/-- The declaration of one task. -/
structure Entry where
  name : String
  /-- Which kind of task it is; the name says so when this is absent. -/
  task : Option String := none
  nickname : Option String := none
  params : Params := ∅
deriving DecidableEq

namespace Entry

def selector (e : Entry) : String := e.task.getD e.name

/-- The nickname, empty when there is none. -/
def nick (e : Entry) : String := e.nickname.getD ""

variable {e : Entry} {s : String}

theorem selector_eq_iff : e.selector = s ↔ e.task = some s ∨ e.task = none ∧ e.name = s := by
  cases hTask : e.task <;> simp [selector, hTask]

theorem nick_eq_iff : e.nick = s ↔ e.nickname = some s ∨ e.nickname = none ∧ s = "" := by
  cases hNickname : e.nickname <;> simp [nick, hNickname, eq_comm]

end Entry

abbrev Plan := Groups Entry

end Sortie
