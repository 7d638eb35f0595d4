/-!
# Shortest decimals

The decimal with the fewest digits that reads back to a given double, and of
those the nearest to it. All comparisons are exact, on naturals.
-/

namespace Sortie.Decimal

/-- The magnitude of a finite double, `m * 2 ^ q`. -/
structure Binary where
  m : Nat
  q : Int
  /-- The gap to the double below is half the gap to the one above. -/
  narrow : Bool
deriving DecidableEq, Repr

structure Scaled where
  digits : Nat
  exponent : Int
deriving DecidableEq, Repr

namespace Binary

/-- The parts of a finite double, its sign left out. -/
def ofFloat (x : Float) : Binary :=
  let e := ((x.toBits >>> 52) &&& 0x7FF).toNat
  let f := (x.toBits &&& 0xFFFFFFFFFFFFF).toNat
  if e = 0 then ⟨f, -1074, false⟩
  else ⟨Nat.pow 2 52 + f, (e : Int) - 1075, f = 0 ∧ 1 < e⟩

end Binary

/-- Compares `a * 10 ^ i` with `n * 2 ^ j`. -/
def compareScaled (a : Nat) (i : Int) (n : Nat) (j : Int) : Ordering :=
  compare (a * Nat.pow 10 i.toNat * Nat.pow 2 (-j).toNat)
    (n * Nat.pow 2 j.toNat * Nat.pow 10 (-i).toNat)

namespace Binary

variable (x : Binary)

/--
Whether a decimal lies among the reals that round to `x`: from halfway to the
double below to halfway to the double above, ends included when `m` is even.
-/
def readsBack (d : Scaled) : Bool :=
  let low := compareScaled d.digits d.exponent (if x.narrow then 4 * x.m - 1 else 4 * x.m - 2) (x.q - 2)
  let high := compareScaled d.digits d.exponent (4 * x.m + 2) (x.q - 2)
  let even := x.m % 2 = 0
  (low = .gt ∨ (even ∧ low = .eq)) ∧ (high = .lt ∨ (even ∧ high = .eq))

/-- The least `k` with `x < 10 ^ k`; the estimate is at most two below it. -/
def scale : Int :=
  let estimate := ((Nat.log2 x.m : Int) + x.q) * 1233 / 4096
  if compareScaled 1 estimate x.m x.q = .gt then estimate
  else if compareScaled 1 (estimate + 1) x.m x.q = .gt then estimate + 1
  else estimate + 2

/-- The value divided by `10 ^ g`, rounded down. -/
def floorOn (g : Int) : Nat :=
  (x.m * Nat.pow 2 x.q.toNat * Nat.pow 10 (-g).toNat) /
    (Nat.pow 2 (-x.q).toNat * Nat.pow 10 g.toNat)

/-- Of two neighbours on a grid the nearer one; a tie goes to the even one. -/
def nearer (a : Nat) (g : Int) : Scaled :=
  match compareScaled (2 * a + 1) g (2 * x.m) x.q with
  | .gt => ⟨a, g⟩
  | .lt => ⟨a + 1, g⟩
  | .eq => if a % 2 = 0 then ⟨a, g⟩ else ⟨a + 1, g⟩

/-- The neighbour on the grid of `10 ^ g` that reads back, if one does. -/
def onGrid? (g : Int) : Option Scaled :=
  let a := x.floorOn g
  match x.readsBack ⟨a, g⟩, x.readsBack ⟨a + 1, g⟩ with
  | true, true => some (x.nearer a g)
  | true, false => some ⟨a, g⟩
  | false, true => some ⟨a + 1, g⟩
  | false, false => none

/-- The exact value as a decimal, for a value that no grid had tried. -/
def exact : Scaled :=
  ⟨x.m * Nat.pow 2 x.q.toNat * Nat.pow 5 (-x.q).toNat, min x.q 0⟩

end Binary

namespace Scaled

/-- Moves trailing zeros of the digits into the exponent, at most `fuel` of them. -/
def strip : Nat → Scaled → Scaled
  | 0, d => d
  | fuel + 1, d =>
    if d.digits % 10 = 0 ∧ d.digits ≠ 0 then strip fuel ⟨d.digits / 10, d.exponent + 1⟩ else d

end Scaled

namespace Binary

/-- The fewest digits that read back; seventeen always suffice. -/
def shortest (x : Binary) : Scaled :=
  let k := x.scale
  let found := (List.range 17).findSome? fun (n : Nat) => x.onGrid? (k - (n + 1))
  (found.getD x.exact).strip 20

end Binary

end Sortie.Decimal
