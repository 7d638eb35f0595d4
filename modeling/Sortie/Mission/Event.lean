import Sortie.Mission.Roster
import Sortie.Command

/-!
# Events

What a mission reports about itself. Every event has a category and a message;
the wording of the messages stands here and nowhere else.
-/

namespace Sortie

inductive Category where
  | mission
  | init
  | command
  | fault
deriving DecidableEq, Repr

namespace Category

def name : Category → String
  | mission => "mission"
  | init => "init"
  | command => "command"
  | fault => "fault"

end Category

inductive Event where
  /-- The entries of a group follow. -/
  | group (g : Group)
  /-- An entry became a task. -/
  | made (name : String) (kind : Kind)
  /-- The selector of an entry names no kind, and the entry is left out. -/
  | unknownTask (selector : String)
  | accepted (text : String)
  | refused (error : CommandError) (text : String)
  /-- No standby task fits a request. -/
  | missing (target : Target)
  | finished (name : String)
  /-- The task that takes over from a finished one. -/
  | next (name : String)
deriving DecidableEq, Repr

namespace Event

def category : Event → Category
  | group _ => .init
  | made _ _ => .init
  | unknownTask _ => .fault
  | accepted _ => .command
  | refused _ _ => .fault
  | missing _ => .fault
  | finished _ => .mission
  | next _ => .mission

def message : Event → String
  | group g => g.label ++ ":"
  | made name kind => "make_task(): " ++ name ++ " (" ++ kind.selector ++ ")"
  | unknownTask selector => "unknown task name: " ++ selector
  | accepted text => text
  | refused error text => error.message ++ ": " ++ text
  | missing t => "couldn't find standby task with " ++ t.label ++ " '" ++ t.key ++ "'"
  | finished name => "task complete: " ++ name
  | next name => "next task: " ++ name

end Event

end Sortie
