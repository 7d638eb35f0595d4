import Sortie.Mission.Run
import Sortie.Vehicle

/-!
# Flights

A flight runs a mission against a simulated vehicle at a fixed step. Commands
are lines of text, trimmed, and of bounded length.
-/

namespace Sortie

structure Flight where
  mission : Mission
  vehicle : Vehicle
  ticks : UInt64 := 0
deriving DecidableEq

/-- A command whose trimmed text takes more bytes than the slot holds. -/
structure TooLong where
  length : Nat
deriving DecidableEq, Repr

namespace Flight

def maxCommandBytes : Nat := 255

end Flight

namespace TooLong

def message (e : TooLong) : String :=
  "Command too long (" ++ toString e.length ++ " bytes, max " ++ toString Flight.maxCommandBytes ++ ")"

end TooLong

namespace Flight

/-- The vehicle is published before the mission is launched, so that tasks find a valid position. -/
def start (p : Plan) (v : Vehicle) : Flight × Report :=
  let o := Mission.launch p (v.publish {})
  ({ mission := o.mission, vehicle := v }, o.report)

/-- Queues a command for the next step, in place of one that still waits. -/
def submit (line : String) (f : Flight) : Except TooLong Flight :=
  let text := Text.trim line
  if maxCommandBytes < text.utf8ByteSize then .error ⟨text.utf8ByteSize⟩
  else .ok { f with mission := f.mission.write (·.submit text) }

def step (dt : Float32) (f : Flight) : Flight × Report :=
  let v := f.vehicle.step dt
  let o := (f.mission.write v.publish).tick dt
  ({ mission := o.mission, vehicle := v, ticks := f.ticks + 1 }, o.report)

def stackNames (f : Flight) : List String :=
  f.mission.roster.names f.mission.roster.stack

end Flight

end Sortie
