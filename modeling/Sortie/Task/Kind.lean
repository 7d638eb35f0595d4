/-!
# Kinds of task

The closed set of behaviours, each with the word that selects it in a plan.
-/

namespace Sortie

inductive Kind where
  | isAirborne
  | camera
  | circle
  | excite
  | flapsManager
  | homeManager
  | idle
  | land
  | land3
  | launch
  | lostLink
  | modeManager
  | parametric
  | preflight
  | calibrate
  | route
  | switches
  | throttleSafety
deriving DecidableEq, Repr

namespace Kind

def all : List Kind :=
  [isAirborne, camera, circle, excite, flapsManager, homeManager, idle, land, land3, launch,
   lostLink, modeManager, parametric, preflight, calibrate, route, switches, throttleSafety]

def selector : Kind → String
  | isAirborne => "is_airborne"
  | camera => "camera"
  | circle => "circle"
  | excite => "excite"
  | flapsManager => "flaps_manager"
  | homeManager => "home_manager"
  | idle => "idle"
  | land => "land"
  | land3 => "land3"
  | launch => "launch"
  | lostLink => "lost_link"
  | modeManager => "mode_manager"
  | parametric => "parametric"
  | preflight => "preflight"
  | calibrate => "calibrate"
  | route => "route"
  | switches => "switches"
  | throttleSafety => "throttle_safety"

def ofSelector? (s : String) : Option Kind :=
  all.find? fun k => k.selector = s

theorem ofSelector?_eq_some_iff {s : String} {k : Kind} :
    ofSelector? s = some k ↔ k.selector = s := by
  constructor
  · intro h
    simpa using List.find?_some h
  · rintro rfl
    cases k <;> decide

/-- The kinds that end by themselves once their duration has passed. -/
def isTimed : Kind → Bool
  | calibrate | excite | launch | land | land3 | parametric | route | preflight => true
  | _ => false

def unknownMessage : String := "unknown task variant"

end Kind

end Sortie
