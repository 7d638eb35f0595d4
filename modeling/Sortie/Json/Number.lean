import Sortie.Json.Cursor

/-!
# Numbers

A number is read digit by digit into a significand of 64 bits. Digits that no
longer fit only count: before the point they raise the exponent, behind it they
are dropped. What is not an integer of 64 bits is the significand as a double,
scaled by one power of ten.
-/

namespace Sortie.Json.Number

def significandBound : Nat := Nat.pow 2 64

/-- Takes digits as long as the significand stays below the bound, and counts them. -/
def absorb (m n : Nat) (index : Nat) : List Char → Nat × Nat × Cursor
  | [] => (m, n, ⟨[], index⟩)
  | d :: rest =>
    if Decimal.isDigit d ∧ 10 * m + Decimal.digitValue d < significandBound then
      absorb (10 * m + Decimal.digitValue d) (n + 1) (index + 1) rest
    else (m, n, ⟨d :: rest, index⟩)

def signed (negative : Bool) (x : Float) : Float := if negative then -x else x

/-- The double nearest to `10 ^ n`, for `n` up to 308. -/
def powerOfTen (n : Nat) : Float := Float.ofScientific 1 false n

/-- Divides by 1e308 again and again, until the value is zero. -/
def sink : Nat → Float → Float
  | 0, x => x
  | n + 1, x => if x == 0 then x else sink n (x / powerOfTen 308)

/-- `x * 10 ^ e`, unless that is out of range. -/
def scale? (x : Float) (e : Int) : Option Float :=
  if e < 0 then
    let n := e.natAbs
    let times := (n - 1) / 308
    some (sink times x / powerOfTen (n - 308 * times))
  else if x == 0 then some x
  else if 308 < e then none
  else
    let y := x * powerOfTen e.toNat
    if y.isFinite then some y else none

def scaled (negative : Bool) (m : Nat) (e : Int) (c : Cursor) : Scan Number :=
  match scale? (Float.ofNat m) e with
  | some x => .ok (.real (signed negative x), c)
  | none => .error (.flaw .numberOutOfRange c.index)

def exponentBound : Nat := Nat.pow 2 31

/-- The digits of an exponent; the answer is `none` where they exceed the bound. -/
def exponentDigits (n index : Nat) : List Char → Option Nat × Cursor
  | [] => (some n, ⟨[], index⟩)
  | d :: rest =>
    if Decimal.isDigit d then
      let n := 10 * n + Decimal.digitValue d
      if n < exponentBound then exponentDigits n (index + 1) rest
      else (none, ⟨rest, index + 1⟩)
    else (some n, ⟨d :: rest, index⟩)

/-- What follows the exponent mark of a number with significand `m` and exponent `e` so far. -/
def exponent (negative : Bool) (m : Nat) (e : Int) (c : Cursor) : Scan Number :=
  let (down, c) : Bool × Cursor := match c.rest with
    | '+' :: rest => (false, ⟨rest, c.index + 1⟩)
    | '-' :: rest => (true, ⟨rest, c.index + 1⟩)
    | _ => (false, c)
  match c.rest with
  | [] => .error (.flaw (.endOfText .value) c.index)
  | d :: _ =>
    if !Decimal.isDigit d then .error (.flaw .invalidNumber (c.index + 1))
    else match exponentDigits 0 c.index c.rest with
      | (some n, c) => scaled negative m (if down then e - n else e + n) c
      | (none, c) =>
        if m ≠ 0 ∧ !down then .error (.flaw .numberOutOfRange c.index)
        else .ok (.real (signed negative 0), c.skipDigits)

def exponentOrEnd (negative : Bool) (m : Nat) (e : Int) (c : Cursor) : Scan Number :=
  match c.rest with
  | 'e' :: rest | 'E' :: rest => exponent negative m e ⟨rest, c.index + 1⟩
  | _ => scaled negative m e c

/-- What follows the point. -/
def fraction (negative : Bool) (m : Nat) (e : Int) (c : Cursor) : Scan Number :=
  let (m, n, c) := absorb m 0 c.index c.rest
  if c.isDigitNext then exponentOrEnd negative m (e - n) c.skipDigits
  else if n = 0 then
    .error (.flaw (if c.rest = [] then .endOfText .value else .invalidNumber) c.ahead)
  else exponentOrEnd negative m (e - n) c

def integral (negative : Bool) (m : Nat) : Number :=
  if !negative then .integer m
  else if 0 < m ∧ m ≤ Nat.pow 2 63 then .integer (-m)
  else .real (-Float.ofNat m)

/-- What follows the digits before the point; `dropped` of them are not in the significand. -/
def afterInteger (negative : Bool) (m dropped : Nat) (c : Cursor) : Scan Number :=
  match c.rest with
  | '.' :: rest => fraction negative m dropped ⟨rest, c.index + 1⟩
  | 'e' :: rest | 'E' :: rest => exponent negative m dropped ⟨rest, c.index + 1⟩
  | _ => if dropped = 0 then .ok (integral negative m, c) else scaled negative m dropped c

/-- A number whose sign has been read. -/
def scan (negative : Bool) (c : Cursor) : Scan Number :=
  match c.rest with
  | [] => .error (.flaw (.endOfText .value) c.index)
  | '0' :: rest =>
    let c : Cursor := ⟨rest, c.index + 1⟩
    if c.isDigitNext then .error (.flaw .invalidNumber c.ahead) else afterInteger negative 0 0 c
  | d :: _ =>
    if !Decimal.isDigit d then .error (.flaw .invalidNumber (c.index + 1))
    else
      let (m, _, c) := absorb 0 0 c.index c.rest
      let c' := c.skipDigits
      afterInteger negative m (c'.index - c.index) c'

end Sortie.Json.Number
