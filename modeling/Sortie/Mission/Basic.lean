import Sortie.Mission.Event
import Sortie.Board

/-!
# Missions and their actions

A mission is a roster of tasks next to a board. An action leads to a new
mission and a report: the hooks of tasks that it called and the events that it
emitted, each in order. `Outcome.andThen` joins two actions, and their reports.
-/

namespace Sortie

/-- What can be asked of a task. -/
inductive Hook where
  | activate
  | update
  | isComplete
  | close
deriving DecidableEq, Repr

namespace Hook

def name : Hook → String
  | activate => "activate"
  | update => "update"
  | isComplete => "is_complete"
  | close => "close"

end Hook

structure Call where
  id : TaskId
  hook : Hook
deriving DecidableEq, Repr

@[ext] structure Report where
  calls : List Call := []
  events : List Event := []
deriving DecidableEq, Repr

namespace Report

instance : EmptyCollection Report := ⟨{}⟩

instance : Append Report := ⟨fun a b => ⟨a.calls ++ b.calls, a.events ++ b.events⟩⟩

def call (id : TaskId) (hook : Hook) : Report := { calls := [⟨id, hook⟩] }

def event (e : Event) : Report := { events := [e] }

variable (a b c : Report)

@[simp] theorem calls_append : (a ++ b).calls = a.calls ++ b.calls := rfl

@[simp] theorem events_append : (a ++ b).events = a.events ++ b.events := rfl

@[simp] theorem calls_empty : (∅ : Report).calls = [] := rfl

@[simp] theorem events_empty : (∅ : Report).events = [] := rfl

@[simp] theorem calls_call (id : TaskId) (hook : Hook) : (call id hook).calls = [⟨id, hook⟩] := rfl

@[simp] theorem events_call (id : TaskId) (hook : Hook) : (call id hook).events = [] := rfl

@[simp] theorem calls_event (e : Event) : (event e).calls = [] := rfl

@[simp] theorem events_event (e : Event) : (event e).events = [e] := rfl

theorem mk_append_mk (cs ds : List Call) (es fs : List Event) :
    (⟨cs, es⟩ : Report) ++ ⟨ds, fs⟩ = ⟨cs ++ ds, es ++ fs⟩ := rfl

theorem append_assoc : a ++ b ++ c = a ++ (b ++ c) := by
  ext1 <;> simp

@[simp] theorem append_empty : a ++ (∅ : Report) = a := by
  ext1 <;> simp

@[simp] theorem empty_append : (∅ : Report) ++ a = a := by
  ext1 <;> simp

end Report

structure Mission where
  roster : Roster := {}
  board : Board := {}
deriving DecidableEq

structure Outcome where
  mission : Mission
  report : Report := ∅

namespace Outcome

def andThen (o : Outcome) (f : Mission → Outcome) : Outcome where
  mission := (f o.mission).mission
  report := o.report ++ (f o.mission).report

variable (o : Outcome) (f : Mission → Outcome)

@[simp] theorem mission_andThen : (o.andThen f).mission = (f o.mission).mission := rfl

@[simp] theorem report_andThen : (o.andThen f).report = o.report ++ (f o.mission).report := rfl

end Outcome

namespace Mission

def stay (m : Mission) : Outcome := ⟨m, ∅⟩

def emit (e : Event) (m : Mission) : Outcome := ⟨m, .event e⟩

def write (f : Board → Board) (m : Mission) : Mission := { m with board := f m.board }

def arrange (f : Roster → Roster) (m : Mission) : Mission := { m with roster := f m.roster }

section

variable (m : Mission) (e : Event) (f : Board → Board) (g : Roster → Roster)

@[simp] theorem mission_stay : m.stay.mission = m := rfl

@[simp] theorem report_stay : m.stay.report = ∅ := rfl

@[simp] theorem mission_emit : (m.emit e).mission = m := rfl

@[simp] theorem report_emit : (m.emit e).report = .event e := rfl

@[simp] theorem roster_write : (m.write f).roster = m.roster := rfl

@[simp] theorem board_write : (m.write f).board = f m.board := rfl

@[simp] theorem roster_arrange : (m.arrange g).roster = g m.roster := rfl

@[simp] theorem board_arrange : (m.arrange g).board = m.board := rfl

end

def activate (id : TaskId) (m : Mission) : Outcome where
  mission := m.arrange (·.modify id Task.activate)
  report := .call id .activate

def update (dt : Float32) (id : TaskId) (m : Mission) : Outcome where
  mission := m.arrange (·.modify id (Task.update dt m.board.preflight))
  report := .call id .update

/-- Puts a task on the front of the stack and activates it. -/
def push (id : TaskId) (m : Mission) : Outcome :=
  (m.arrange (·.push id)).activate id

def pop (m : Mission) : Outcome :=
  match m.roster.stack with
  | [] => m.stay
  | id :: _ => ⟨m.arrange Roster.pop, .call id .close⟩

end Mission

end Sortie
