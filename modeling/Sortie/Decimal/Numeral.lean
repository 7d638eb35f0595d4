/-!
# Decimal numerals

The written form of a number: an optional sign, then digits with at most one
point and an optional exponent, or one of the words `inf`, `infinity` and `nan`
in any case. A numeral is read to a sign, a significand and a power of ten, and
rounded once to the nearest binary value.
-/

namespace Sortie.Decimal

/-- `finite` stands for the number `significand * 10 ^ exponent` with a sign. -/
inductive Numeral where
  | finite (negative : Bool) (significand : Nat) (exponent : Int)
  | infinite (negative : Bool)
  | nan
deriving DecidableEq, Repr

def isDigit (c : Char) : Bool :=
  '0' ≤ c && c ≤ '9'

def digitValue (c : Char) : Nat :=
  c.toNat - '0'.toNat

def digitsValue (ds : List Char) : Nat :=
  ds.foldl (fun n d => 10 * n + digitValue d) 0

/-- Takes a leading sign off; the flag says that it was a minus. -/
def takeSign : List Char → Bool × List Char
  | '-' :: cs => (true, cs)
  | '+' :: cs => (false, cs)
  | cs => (false, cs)

/-- The number written by the digits of an exponent; once it is past 65535 no more digits count. -/
def exponentValue (ds : List Char) : Nat :=
  ds.foldl (fun n d => if n < 0x10000 then 10 * n + digitValue d else n) 0

/-- The exponent of a numeral: nothing at all, or a mark, an optional sign and digits. -/
def exponent? : List Char → Option Int
  | [] => some 0
  | c :: cs =>
    let (negative, ds) := takeSign cs
    if (c = 'e' ∨ c = 'E') ∧ ds ≠ [] ∧ ds.all isDigit then
      some (if negative then -(exponentValue ds : Int) else exponentValue ds)
    else none

/-- The digits before the point, those after it, and what follows. -/
def splitPoint (cs : List Char) : List Char × List Char × List Char :=
  let whole := cs.takeWhile isDigit
  match cs.dropWhile isDigit with
  | '.' :: rest => (whole, rest.takeWhile isDigit, rest.dropWhile isDigit)
  | rest => (whole, [], rest)

def word? (negative : Bool) (cs : List Char) : Option Numeral :=
  match cs.map Char.toLower with
  | ['i', 'n', 'f'] | ['i', 'n', 'f', 'i', 'n', 'i', 't', 'y'] => some (.infinite negative)
  | ['n', 'a', 'n'] => some .nan
  | _ => none

def unsigned? (negative : Bool) (cs : List Char) : Option Numeral :=
  let (whole, fraction, rest) := splitPoint cs
  if whole = [] ∧ fraction = [] then word? negative cs
  else (exponent? rest).map fun e =>
    .finite negative (digitsValue (whole ++ fraction)) (e - fraction.length)

namespace Numeral

def read? (s : String) : Option Numeral :=
  let (negative, cs) := takeSign s.toList
  unsigned? negative cs

end Numeral

/--
Whether `m * 10 ^ e` lies so far out that every binary format here rounds it to
infinity or to zero; the power of ten then need not be computed.
-/
def farAbove (m : Nat) (e : Int) : Bool :=
  m ≠ 0 && 400 < e

def farBelow (m : Nat) (e : Int) : Bool :=
  m = 0 || (Nat.log2 m : Int) + 1 + 3 * e < -1100

def nearestFloat (m : Nat) (e : Int) : Float :=
  if farBelow m e then 0
  else if farAbove m e then Float.ofBits 0x7FF0000000000000
  else Float.ofScientific m (e < 0) e.natAbs

def nearestFloat32 (m : Nat) (e : Int) : Float32 :=
  if farBelow m e then 0
  else if farAbove m e then Float32.ofBits 0x7F800000
  else Float32.ofScientific m (e < 0) e.natAbs

namespace Numeral

def toFloat : Numeral → Float
  | .finite negative m e => if negative then -(nearestFloat m e) else nearestFloat m e
  | .infinite negative => Float.ofBits (if negative then 0xFFF0000000000000 else 0x7FF0000000000000)
  | .nan => Float.ofBits 0x7FF8000000000000

def toFloat32 : Numeral → Float32
  | .finite negative m e => if negative then -(nearestFloat32 m e) else nearestFloat32 m e
  | .infinite negative => Float32.ofBits (if negative then 0xFF800000 else 0x7F800000)
  | .nan => Float32.ofBits 0x7FC00000

end Numeral

def float? (s : String) : Option Float :=
  (Numeral.read? s).map Numeral.toFloat

def float32? (s : String) : Option Float32 :=
  (Numeral.read? s).map Numeral.toFloat32

end Sortie.Decimal
