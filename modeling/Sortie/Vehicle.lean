import Sortie.Board

/-!
# The simulated vehicle

A point that drifts at a constant velocity over a sphere, and a fixed wind.
-/

namespace Sortie

structure Vehicle where
  position : GeoPoint
  wind : Float32
  /-- Ground velocity to the north, in meters per second. -/
  north : Float := 0
  east : Float := 0
deriving DecidableEq

namespace Vehicle

def metersPerDegree : Float := 111320

/-- The double nearest to π / 180. -/
def radiansPerDegree : Float := Float.ofBits 0x3F91DF46A2529D39

/-- The gap between 1 and the next double. -/
def epsilon : Float := Float.ofBits 0x3CB0000000000000

/-- Degrees of longitude shrink with the cosine of the latitude; at the poles the longitude is kept. -/
def step (dt : Float32) (v : Vehicle) : Vehicle :=
  let dt := dt.toFloat
  let cosLat := (v.position.lat * radiansPerDegree).cos
  let lat := v.position.lat + v.north * dt / metersPerDegree
  let lon :=
    if epsilon < cosLat.abs then v.position.lon + v.east * dt / (metersPerDegree * cosLat)
    else v.position.lon
  { v with position := { lon, lat } }

def publish (v : Vehicle) (b : Board) : Board :=
  { b with position := v.position, wind := v.wind }

end Vehicle

end Sortie
