import Sortie.Decimal.Shortest

/-!
# The text of a double

The fewest digits that identify the value. A leading digit between the fifth
place after the point and the sixteenth before it is written positionally, with
`.0` behind an integer; all else gets a signed exponent without padding.
-/

namespace Sortie.Decimal

def zeros (n : Nat) : String := String.ofList (List.replicate n '0')

/-- Digits with the exponent of the leading one, written positionally. -/
def positional (digits : List Char) (e : Int) : String :=
  let point := (e + 1).toNat
  if e < 0 then "0." ++ zeros (-e - 1).toNat ++ String.ofList digits
  else if digits.length ≤ point then
    String.ofList digits ++ zeros (point - digits.length) ++ ".0"
  else String.ofList (digits.take point) ++ "." ++ String.ofList (digits.drop point)

def scientific (digits : List Char) (e : Int) : String :=
  let mantissa := match digits with
    | [] => ""
    | [d] => String.ofList [d]
    | d :: rest => String.ofList [d, '.'] ++ String.ofList rest
  mantissa ++ (if e < 0 then "e-" else "e+") ++ toString e.natAbs

/-- The text of the magnitude of a finite double. -/
def magnitude (x : Binary) : String :=
  if x.m = 0 then "0.0"
  else
    let d := x.shortest
    let digits := Nat.toDigits 10 d.digits
    let e := d.exponent + digits.length - 1
    if -5 ≤ e ∧ e ≤ 15 then positional digits e else scientific digits e

def render (x : Float) : String :=
  if x.isNaN then "NaN"
  else
    let sign := if x.toBits >>> 63 = 1 then "-" else ""
    sign ++ (if x.isFinite then magnitude (.ofFloat x) else "inf")

end Sortie.Decimal
