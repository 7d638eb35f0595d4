import Sortie.Mission.Tick

/-!
# Launch and run

A mission is launched from a plan and a board. From then on the host may put
texts into the command slot, make requests, move the vehicle and let time pass,
in any order; a run is any finite sequence of such operations.
-/

namespace Sortie

namespace Roster

/-- Adds the task of an entry, if its selector names a kind. -/
def enlist (g : Group) (e : Entry) (r : Roster) : Roster :=
  match Kind.ofSelector? e.selector with
  | some kind => r.insert g (.ofEntry kind e)
  | none => r

end Roster

namespace Entry

/-- What is reported when the entry is enlisted. -/
def event (e : Entry) : Event :=
  match Kind.ofSelector? e.selector with
  | some kind => .made e.name kind
  | none => .unknownTask e.selector

end Entry

namespace Mission

def enlist (g : Group) (e : Entry) (m : Mission) : Outcome :=
  ⟨m.arrange (·.enlist g e), .event e.event⟩

def enlistAll (g : Group) : List Entry → Mission → Outcome
  | [], m => m.stay
  | e :: rest, m => (m.enlist g e).andThen (enlistAll g rest)

def muster (p : Plan) : List Group → Mission → Outcome
  | [], m => m.stay
  | g :: rest, m =>
    ((m.emit (.group g)).andThen (enlistAll g (p.get g))).andThen (muster p rest)

def activateAll : List TaskId → Mission → Outcome
  | [], m => m.stay
  | id :: ids, m => (m.activate id).andThen (activateAll ids)

/-- Enlists the plan, then activates the global tasks and the front. -/
def launch (p : Plan) (b : Board) : Outcome :=
  ((muster p Group.all { board := b }).andThen fun m => m.activateAll m.roster.globals).andThen
    fun m => m.activateAll m.roster.front?.toList

/-- One thing that the host can do. -/
inductive Op where
  | submit (text : String)
  | process
  | request (r : Request)
  | tick (dt : Float32)
  | position (p : GeoPoint)
  | wind (direction : Float32)
  | preflight (duration : Option Float32)
deriving DecidableEq

def apply (m : Mission) : Op → Outcome
  | .submit text => (m.write (·.submit text)).stay
  | .process => m.processCommand
  | .request r => m.perform r
  | .tick dt => m.tick dt
  | .position p => (m.write ({ · with position := p })).stay
  | .wind direction => (m.write ({ · with wind := direction })).stay
  | .preflight duration => (m.write ({ · with preflight := duration })).stay

def run : List Op → Mission → Outcome
  | [], m => m.stay
  | op :: ops, m => (m.apply op).andThen (run ops)

end Mission

end Sortie
