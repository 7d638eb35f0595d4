import Sortie.Json.Text
import Sortie.Json.Number

/-!
# Values that nobody reads

A value is passed over with less care than one that is read: it may nest to any
depth, its numbers may have any size, and its escapes need not name characters.
The brackets that are open are kept on a list.
-/

namespace Sortie.Json.Skim

/-- Passes over a quoted text whose opening quote has been read. -/
def text (index : Nat) : Bool → List Char → Except Fault Cursor
  | _, [] => .error (.flaw (.endOfText .string) index)
  | false, '"' :: cs => .ok ⟨cs, index + 1⟩
  | false, '\\' :: cs => text (index + 1) true cs
  | false, c :: cs =>
    if c.toNat < 0x20 then .error (.flaw .controlCharacter index)
    else text (index + c.utf8Size) false cs
  | true, 'u' :: a :: b :: c :: d :: cs =>
    if [a, b, c, d].all fun x => (Text.hexValue? x).isSome then text (index + 5) false cs
    else .error (Text.hexFault 4 (a :: b :: c :: d :: cs) (index + 1))
  | true, 'u' :: cs => .error (Text.hexFault 4 cs (index + 1))
  | true, c :: cs =>
    if (Text.unescape? c).isSome then text (index + 1) false cs
    else .error (.flaw .invalidEscape (index + 1))

/-- At least one digit, or a fault in the byte that stands in its place. -/
def someDigits (c : Cursor) : Except Fault Cursor :=
  if c.isDigitNext then .ok c.skipDigits else .error (.flaw .invalidNumber c.ahead)

def exponent (c : Cursor) : Except Fault Cursor :=
  match c.rest with
  | '+' :: rest | '-' :: rest => someDigits ⟨rest, c.index + 1⟩
  | _ => someDigits c

def exponentOrEnd (c : Cursor) : Except Fault Cursor :=
  match c.rest with
  | 'e' :: rest | 'E' :: rest => exponent ⟨rest, c.index + 1⟩
  | _ => .ok c

def afterInteger (c : Cursor) : Except Fault Cursor :=
  match c.rest with
  | '.' :: rest => do exponentOrEnd (← someDigits ⟨rest, c.index + 1⟩)
  | _ => exponentOrEnd c

/-- Passes over a number whose sign has been read. -/
def number (c : Cursor) : Except Fault Cursor :=
  match c.rest with
  | '0' :: rest =>
    let c : Cursor := ⟨rest, c.index + 1⟩
    if c.isDigitNext then .error (.flaw .invalidNumber c.ahead) else afterInteger c
  | _ => do afterInteger (← someDigits c)

inductive Bracket where
  | list
  | map
deriving DecidableEq, Repr

namespace Bracket

def closing : Bracket → Char
  | list => ']'
  | map => '}'

def unfinished : Bracket → Unfinished
  | list => .list
  | map => .object

def expectedEnd : Bracket → Flaw
  | list => .expectedListEnd
  | map => .expectedObjectEnd

end Bracket

inductive Stage where
  /-- A value is wanted. -/
  | value
  /-- The innermost bracket has just been opened. -/
  | opened
  /-- A value has just ended. -/
  | ended
deriving DecidableEq, Repr

/-- The key and the colon of a field. -/
def key (c : Cursor) : Except Fault Cursor :=
  let c := c.skipBlanks
  match c.rest with
  | '"' :: rest => do
    let c := (← text (c.index + 1) false rest).skipBlanks
    match c.rest with
    | ':' :: rest => .ok ⟨rest, c.index + 1⟩
    | [] => .error (.flaw (.endOfText .object) c.index)
    | _ => .error (.flaw .expectedColon c.ahead)
  | [] => .error (.flaw (.endOfText .object) c.index)
  | _ => .error (.flaw .keyNotText c.ahead)

/-- What stands before the value of the next member. -/
def member : Bracket → Cursor → Except Fault Cursor
  | .list, c => .ok c
  | .map, c => key c

def scalar (c : Cursor) : Except Fault Cursor :=
  match c.rest with
  | 'n' :: _ => c.word ['n', 'u', 'l', 'l']
  | 't' :: _ => c.word ['t', 'r', 'u', 'e']
  | 'f' :: _ => c.word ['f', 'a', 'l', 's', 'e']
  | '-' :: rest => number ⟨rest, c.index + 1⟩
  | '"' :: rest => text (c.index + 1) false rest
  | [] => .error (.flaw (.endOfText .value) c.index)
  | d :: _ => if Decimal.isDigit d then number c else .error (.flaw .expectedValue c.ahead)

/-- Every turn takes a character or ends a value; the fuel is twice the length of the text. -/
def go : Nat → Stage → List Bracket → Cursor → Except Fault Cursor
  | 0, _, _, c => .error (.flaw (.endOfText .value) c.index)
  | fuel + 1, .value, brackets, c =>
    let c := c.skipBlanks
    match c.rest with
    | '[' :: rest => go fuel .opened (.list :: brackets) ⟨rest, c.index + 1⟩
    | '{' :: rest => go fuel .opened (.map :: brackets) ⟨rest, c.index + 1⟩
    | _ => do go fuel .ended brackets (← scalar c)
  | _ + 1, .ended, [], c => .ok c
  | _ + 1, .opened, [], c => .ok c
  | fuel + 1, stage, b :: brackets, c =>
    let c := c.skipBlanks
    match c.rest with
    | [] => .error (.flaw (.endOfText b.unfinished) c.index)
    | d :: rest =>
      if d = b.closing then go fuel .ended brackets ⟨rest, c.index + 1⟩
      else if stage = .opened then do go fuel .value (b :: brackets) (← member b c)
      else if d = ',' then do go fuel .value (b :: brackets) (← member b ⟨rest, c.index + 1⟩)
      else .error (.flaw b.expectedEnd c.ahead)

def scan (c : Cursor) : Except Fault Cursor :=
  go (2 * c.rest.length + 2) .value [] c

end Sortie.Json.Skim
