import Sortie.Json.Fault
import Sortie.Decimal.Numeral

/-!
# Cursors

The rest of a text that is being read, with the number of bytes before it.
-/

namespace Sortie.Json

structure Cursor where
  rest : List Char
  index : Nat := 0
deriving DecidableEq

/-- A scanner takes something off the front of a text, or finds a fault. -/
abbrev Scan (α : Type) := Except Fault (α × Cursor)

namespace Cursor

def isBlank (c : Char) : Bool :=
  c = ' ' || c = '\n' || c = '\t' || c = '\r'

def skipBlanks (c : Cursor) : Cursor where
  rest := c.rest.dropWhile isBlank
  index := c.index + (c.rest.takeWhile isBlank).length

/-- The place of a fault in the next byte; at the end of the text, the end. -/
def ahead (c : Cursor) : Nat :=
  if c.rest = [] then c.index else c.index + 1

def isDigitNext (c : Cursor) : Bool :=
  match c.rest with
  | d :: _ => Decimal.isDigit d
  | [] => false

def skipDigits (c : Cursor) : Cursor where
  rest := c.rest.dropWhile Decimal.isDigit
  index := c.index + (c.rest.takeWhile Decimal.isDigit).length

/-- Whether at least `n` bytes are left. -/
def hasBytes : Nat → List Char → Bool
  | 0, _ => true
  | _ + 1, [] => false
  | n + 1, c :: cs => hasBytes (n + 1 - c.utf8Size) cs

/-- Takes the letters of a word, one after the other. -/
def word : List Char → Cursor → Except Fault Cursor
  | [], c => .ok c
  | w :: ws, c =>
    match c.rest with
    | [] => .error (.flaw (.endOfText .value) c.index)
    | d :: rest =>
      if d = w then word ws ⟨rest, c.index + 1⟩ else .error (.flaw .expectedWord (c.index + 1))

/--
The place to which a faulty object is read: over blanks, and over the closing
brace if it follows.
-/
def settle (c : Cursor) : Nat :=
  let c := c.skipBlanks
  match c.rest with
  | '}' :: _ => c.index + 1
  | _ => c.index

end Cursor

end Sortie.Json
