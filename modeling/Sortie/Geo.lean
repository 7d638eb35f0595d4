/-!
# Positions and directions

A position in degrees, and the sense in which an orbit is flown.
-/

namespace Sortie

structure GeoPoint where
  lon : Float := 0
  lat : Float := 0
deriving DecidableEq

/-- `left` flies counter-clockwise. -/
inductive Direction where
  | left
  | right
deriving DecidableEq, Repr, Inhabited

namespace Direction

def name : Direction → String
  | left => "left"
  | right => "right"

end Direction

end Sortie
