import Sortie.Mission.Basic

/-!
# Requests

A request changes the stack on behalf of a command or of the host. An order
wants one standby task at the front: if the front is that task already nothing
happens, otherwise the first standby task that fits is pushed and activated, and
if there is none a fault is reported and the stack is left alone. Orders differ
in what they write on the board, and when.
-/

namespace Sortie

/-- A descending orbit and where to leave it. -/
structure Descent where
  /-- Without a target, the place where the vehicle is. -/
  target : Option GeoPoint
  radius : Float32
  direction : Direction
  exitAgl : Float32
  exitHeading : Float32
deriving DecidableEq

inductive Order where
  | home
  | circle (target : Option GeoPoint)
  | descent (d : Descent)
  | idle
  | land (heading : Option Float32)
  | preflight (duration : Float32)
  | named (name : String)
deriving DecidableEq

inductive Request where
  | order (o : Order)
  | resume
  | pop
deriving DecidableEq

namespace Order

def homeNickname : String := "circle_home"

def circleNickname : String := "circle_target"

def descentNickname : String := "circle_descent"

def idleName : String := "idle"

def landName : String := "land"

def preflightName : String := "preflight"

def target : Order → Target
  | home => .nickname homeNickname
  | circle _ => .nickname circleNickname
  | descent _ => .nickname descentNickname
  | idle => .name idleName
  | land _ => .name landName
  | preflight _ => .name preflightName
  | named name => .name name

end Order

namespace Command

def request : Command → Request
  | home => .order .home
  | circle target => .order (.circle target)
  | idle => .order .idle
  | resume => .resume
  | land heading => .order (.land heading)
  | preflight duration => .order (.preflight duration)
  | calibrate => .order (.named "calibrate")
  | route => .order (.named "route")
  | parametric => .order (.named "parametric")
  | pop => .pop

end Command

/-- Where the task that an order wants is to be found. -/
inductive Whereabouts where
  | atFront
  | standby (id : TaskId)
  | nowhere
deriving DecidableEq, Repr

namespace Roster

def seek (r : Roster) (t : Target) : Whereabouts :=
  if r.frontTask?.any t.fits then .atFront
  else match r.find? t with
    | some id => .standby id
    | none => .nowhere

end Roster

namespace Order

/--
What an order writes on the board. The orbit's center is written always, the
preflight duration unless the task is at the front, and all else only when the
task is pushed.
-/
def publish (w : Whereabouts) (o : Order) (b : Board) : Board :=
  match o, w with
  | circle target, _ => b.setCircleTarget (target.getD b.position)
  | descent d, .standby _ =>
    ((b.setCircleTarget (d.target.getD b.position)).setCircleShape d.radius d.direction).setCircleExit
      d.exitAgl d.exitHeading
  | land heading, .standby _ => b.setLanding (heading.getD b.wind)
  | preflight duration, .standby _ => b.setPreflight duration
  | preflight duration, .nowhere => b.setPreflight duration
  | _, _ => b

end Order

namespace Mission

/-- Brings the wanted task to the front, if it is not there and can be found. -/
def engage (t : Target) (m : Mission) : Outcome :=
  match m.roster.seek t with
  | .atFront => m.stay
  | .standby id => m.push id
  | .nowhere => m.emit (.missing t)

def order (o : Order) (m : Mission) : Outcome :=
  (m.write (o.publish (m.roster.seek o.target))).engage o.target

/-- The names of the front tasks that `resume` may retire. -/
def resumable : List String := ["circle-coord", "land"]

/-- Retires an interrupting circle or landing; the task underneath goes on as it was. -/
def resume (m : Mission) : Outcome :=
  if m.roster.frontTask?.any (·.name ∈ resumable) then m.pop else m.stay

def perform (r : Request) (m : Mission) : Outcome :=
  match r with
  | .order o => m.order o
  | .resume => m.resume
  | .pop => m.pop

end Mission

end Sortie
