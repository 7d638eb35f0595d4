import Sortie.Geo

/-!
# The board

The values that the host, the scheduler and the tasks share: where the vehicle
is, the slots for a command and its result, and the parameters of the tasks.
-/

namespace Sortie

/-- The orbit flown by circling tasks; what is unset was never asked for. -/
structure Circle where
  target : GeoPoint := {}
  radius : Option Float32 := none
  direction : Option Direction := none
  /-- The height above ground, in feet, below which a descending orbit is left. -/
  exitAgl : Option Float32 := none
  exitHeading : Option Float32 := none
deriving DecidableEq

structure Board where
  position : GeoPoint := {}
  /-- The direction from which the wind blows, in degrees. -/
  wind : Float32 := 0
  /-- The pending command; empty when none waits. -/
  request : String := ""
  /-- The outcome of the last command. -/
  result : String := ""
  /-- The name of the task that was last driven as the front. -/
  current : String := ""
  circle : Circle := {}
  landing : Option Float32 := none
  /-- The commanded duration of the preflight task, in seconds. -/
  preflight : Option Float32 := none
deriving DecidableEq

namespace Board

/-- Puts a command into the slot, in place of one that still waits there. -/
def submit (text : String) (b : Board) : Board := { b with request := text }

def clearRequest (b : Board) : Board := { b with request := "" }

def setResult (text : String) (b : Board) : Board := { b with result := text }

def setCurrent (name : String) (b : Board) : Board := { b with current := name }

def setCircleTarget (p : GeoPoint) (b : Board) : Board :=
  { b with circle := { b.circle with target := p } }

def setCircleShape (radius : Float32) (direction : Direction) (b : Board) : Board :=
  { b with circle := { b.circle with radius := some radius, direction := some direction } }

def setCircleExit (agl heading : Float32) (b : Board) : Board :=
  { b with circle := { b.circle with exitAgl := some agl, exitHeading := some heading } }

def setLanding (heading : Float32) (b : Board) : Board := { b with landing := some heading }

def setPreflight (duration : Float32) (b : Board) : Board := { b with preflight := some duration }

end Board

end Sortie
