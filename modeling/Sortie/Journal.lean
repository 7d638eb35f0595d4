import Sortie.Mission.Event

/-!
# Journals

Events as lines of category and message, kept in order, with the level at which
each line is logged.
-/

namespace Sortie

structure Line where
  category : String
  message : String
deriving DecidableEq, Repr

namespace Event

def line (e : Event) : Line := ⟨e.category.name, e.message⟩

end Event

inductive Level where
  | error
  | warn
  | info
  | debug
deriving DecidableEq, Repr

namespace Level

def name : Level → String
  | error => "ERROR"
  | warn => "WARN"
  | info => "INFO"
  | debug => "DEBUG"

end Level

namespace Line

/-- Faults are warnings, the chatter of the launch is for debugging, and all else is information. -/
def level (l : Line) : Level :=
  if l.category = Category.fault.name then .warn
  else if l.category = Category.init.name then .debug
  else .info

end Line

abbrev Journal := List Line

namespace Journal

def countLine (j : Journal) (l : Line) : Nat := List.count l j

def messages (j : Journal) (category : String) : List String :=
  (j.filter (·.category = category)).map Line.message

end Journal

end Sortie
