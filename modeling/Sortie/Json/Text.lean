import Sortie.Json.Cursor

/-!
# Quoted texts

A text is read character by character with a small state: plain characters, a
character behind a backslash, or the digits of a hexadecimal escape. Characters
beyond 16 bits are written as two escapes, the second in the upper half.
-/

namespace Sortie.Json.Text

inductive State where
  | plain
  | escape
  /-- So many digits of an escape are wanted; `high` is the first half of a pair. -/
  | hex (wanted value : Nat) (high : Option Nat)
  /-- The backslash of the second half is wanted. -/
  | backslash (high : Nat)
  /-- The `u` of the second half is wanted. -/
  | letter (high : Nat)
deriving DecidableEq, Repr

/-- The character for which a letter behind a backslash stands. -/
def unescape? : Char → Option Char
  | '"' => some '"'
  | '\\' => some '\\'
  | '/' => some '/'
  | 'b' => some '\x08'
  | 'f' => some '\x0c'
  | 'n' => some '\n'
  | 'r' => some '\r'
  | 't' => some '\t'
  | _ => none

def hexValue? (c : Char) : Option Nat :=
  if '0' ≤ c ∧ c ≤ '9' then some (c.toNat - '0'.toNat)
  else if 'a' ≤ c ∧ c ≤ 'f' then some (c.toNat - 'a'.toNat + 10)
  else if 'A' ≤ c ∧ c ≤ 'F' then some (c.toNat - 'A'.toNat + 10)
  else none

def isHigh (n : Nat) : Bool := 0xD800 ≤ n && n ≤ 0xDBFF

def isLow (n : Nat) : Bool := 0xDC00 ≤ n && n ≤ 0xDFFF

/-- The character of the two halves of a pair. -/
def join (high low : Nat) : Char :=
  Char.ofNat ((high - 0xD800) * 0x400 + (low - 0xDC00) + 0x10000)

/--
The place of a fault in an escape of which `wanted` digits were left before the
character here: the fourth byte, or the end of the text if that comes first.
-/
def hexFault (wanted : Nat) (cs : List Char) (index : Nat) : Fault :=
  if Cursor.hasBytes wanted cs then .flaw .invalidEscape (index + wanted)
  else .flaw (.endOfText .string) (index + (String.ofList cs).utf8ByteSize)

/-- Reads to the closing quote. The characters read so far are kept in reverse. -/
def scanFrom (index : Nat) (read : List Char) : State → List Char → Scan String
  | _, [] => .error (.flaw (.endOfText .string) index)
  | .plain, c :: cs =>
    if c = '"' then .ok (String.ofList read.reverse, ⟨cs, index + 1⟩)
    else if c = '\\' then scanFrom (index + 1) read .escape cs
    else if c.toNat < 0x20 then .error (.flaw .controlCharacter (index + 1))
    else scanFrom (index + c.utf8Size) (c :: read) .plain cs
  | .escape, c :: cs =>
    if c = 'u' then scanFrom (index + 1) read (.hex 4 0 none) cs
    else match unescape? c with
      | some c' => scanFrom (index + 1) (c' :: read) .plain cs
      | none => .error (.flaw .invalidEscape (index + 1))
  | .hex wanted value high, c :: cs =>
    match hexValue? c with
    | none => .error (hexFault wanted (c :: cs) index)
    | some d =>
      let value := 16 * value + d
      let index := index + 1
      if 1 < wanted then scanFrom index read (.hex (wanted - 1) value high) cs
      else match high with
        | some h =>
          if isLow value then scanFrom index (join h value :: read) .plain cs
          else .error (.flaw .loneSurrogate index)
        | none =>
          if isLow value then .error (.flaw .loneSurrogate index)
          else if isHigh value then scanFrom index read (.backslash value) cs
          else scanFrom index (Char.ofNat value :: read) .plain cs
  | .backslash high, c :: cs =>
    if c = '\\' then scanFrom (index + 1) read (.letter high) cs
    else .error (.flaw .unfinishedPair (index + 1))
  | .letter high, c :: cs =>
    if c = 'u' then scanFrom (index + 1) read (.hex 4 0 (some high)) cs
    else .error (.flaw .unfinishedPair (index + 1))

/-- A text whose opening quote has been read. -/
def scan (c : Cursor) : Scan String := scanFrom c.index [] .plain c.rest

end Sortie.Json.Text
