import Sortie.Json.Value
import Sortie.Decimal.Notation
import Sortie.Text.Quoted

/-!
# Faults

What can be wrong with a JSON text, and where. A flaw is against the grammar; a
mismatch is against what a reader expects of a value. A place is counted in
bytes, and written as a line and a column.
-/

namespace Sortie.Json

/-- What was being read when the text ended. -/
inductive Unfinished where
  | value
  | list
  | object
  | string
deriving DecidableEq, Repr

inductive Flaw where
  | endOfText (u : Unfinished)
  | expectedValue
  | expectedWord
  | expectedColon
  | expectedListEnd
  | expectedObjectEnd
  | keyNotText
  | trailingComma
  | trailingCharacters
  | invalidNumber
  | numberOutOfRange
  | invalidEscape
  | loneSurrogate
  | unfinishedPair
  | controlCharacter
  | tooDeep
deriving DecidableEq, Repr

namespace Flaw

def message : Flaw → String
  | endOfText .value => "EOF while parsing a value"
  | endOfText .list => "EOF while parsing a list"
  | endOfText .object => "EOF while parsing an object"
  | endOfText .string => "EOF while parsing a string"
  | expectedValue => "expected value"
  | expectedWord => "expected ident"
  | expectedColon => "expected `:`"
  | expectedListEnd => "expected `,` or `]`"
  | expectedObjectEnd => "expected `,` or `\x7d`"
  | keyNotText => "key must be a string"
  | trailingComma => "trailing comma"
  | trailingCharacters => "trailing characters"
  | invalidNumber => "invalid number"
  | numberOutOfRange => "number out of range"
  | invalidEscape => "invalid escape"
  | loneSurrogate => "lone leading surrogate in hex escape"
  | unfinishedPair => "unexpected end of hex escape"
  | controlCharacter =>
    "control character (\\u0000-\\u001F) found while parsing a string"
  | tooDeep => "recursion limit exceeded"

end Flaw

/-- What stands where something else was expected. -/
inductive Found where
  | scalar (s : Scalar)
  | list
  | map
deriving DecidableEq

namespace Found

def message : Found → String
  | scalar .null => "null"
  | scalar (.bool b) => "boolean `" ++ (if b then "true" else "false") ++ "`"
  | scalar (.number (.integer n)) => "integer `" ++ toString n ++ "`"
  | scalar (.number (.real x)) => "floating point `" ++ Decimal.render x ++ "`"
  | scalar (.text s) => "string " ++ Text.quoted s
  | list => "sequence"
  | map => "map"

end Found

inductive Mismatch where
  | kind (found : Found) (expected : String)
  | unknownField (name : String) (known : List String)
  | duplicateField (name : String)
  | missingField (name : String)
  | length (n : Nat) (expected : String)
  | noVariant
deriving DecidableEq

namespace Mismatch

def message : Mismatch → String
  | kind found expected => "invalid type: " ++ found.message ++ ", expected " ++ expected
  | unknownField name known =>
    "unknown field `" ++ name ++ "`, expected one of " ++
      ", ".intercalate (known.map fun k => "`" ++ k ++ "`")
  | duplicateField name => "duplicate field `" ++ name ++ "`"
  | missingField name => "missing field `" ++ name ++ "`"
  | length n expected => "invalid length " ++ toString n ++ ", expected " ++ expected
  | noVariant => "data did not match any variant of untagged enum ParamValue"

end Mismatch

inductive Reason where
  | flaw (f : Flaw)
  | mismatch (m : Mismatch)
deriving DecidableEq

/-- A reason and the number of bytes before the place where it was found. -/
structure Fault where
  reason : Reason
  index : Nat
deriving DecidableEq

/-- One more than the line breaks before a place, and the bytes since the last of them. -/
structure Position where
  line : Nat
  column : Nat
deriving DecidableEq, Repr

namespace Position

/-- The position after the given number of bytes; a place inside a character counts the bytes before it. -/
def ofIndex : List Char → Nat → Position → Position
  | [], _, p => p
  | c :: cs, n, p =>
    if n < c.utf8Size then { p with column := p.column + n }
    else if c = '\n' then ofIndex cs (n - 1) ⟨p.line + 1, 0⟩
    else ofIndex cs (n - c.utf8Size) { p with column := p.column + c.utf8Size }

end Position

namespace Fault

def flaw (f : Flaw) (index : Nat) : Fault := ⟨.flaw f, index⟩

def mismatch (m : Mismatch) (index : Nat) : Fault := ⟨.mismatch m, index⟩

def position (text : String) (f : Fault) : Position :=
  Position.ofIndex text.toList f.index ⟨1, 0⟩

def message (text : String) (f : Fault) : String :=
  let reason := match f.reason with
    | .flaw f => f.message
    | .mismatch m => m.message
  let p := f.position text
  reason ++ " at line " ++ toString p.line ++ " column " ++ toString p.column

end Fault

end Sortie.Json
