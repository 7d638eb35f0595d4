import Sortie.Json.Value
import Sortie.Decimal.Notation

/-!
# Writing JSON

The compact form: no blanks, and escapes only for quotes, backslashes and
control characters. A number that is not finite is written as `null`.
-/

namespace Sortie.Json

def hexDigit (n : Nat) : Char :=
  if n < 10 then Char.ofNat ('0'.toNat + n) else Char.ofNat ('a'.toNat + (n - 10))

def escape (c : Char) : List Char :=
  if c = '"' then ['\\', '"']
  else if c = '\\' then ['\\', '\\']
  else if c = '\x08' then ['\\', 'b']
  else if c = '\x0c' then ['\\', 'f']
  else if c = '\n' then ['\\', 'n']
  else if c = '\r' then ['\\', 'r']
  else if c = '\t' then ['\\', 't']
  else if c.toNat < 0x20 then
    ['\\', 'u', '0', '0', hexDigit (c.toNat / 16), hexDigit (c.toNat % 16)]
  else [c]

def renderText (s : String) : String :=
  "\"" ++ String.ofList (s.toList.flatMap escape) ++ "\""

namespace Number

def render : Number → String
  | integer n => toString n
  | real x => if x.isFinite then Decimal.render x else "null"

end Number

namespace Scalar

def render : Scalar → String
  | null => "null"
  | bool b => if b then "true" else "false"
  | number n => n.render
  | text s => renderText s

end Scalar

namespace Value

mutual

def render : Value → String
  | scalar s => s.render
  | list items => "[" ++ ",".intercalate (renderItems items) ++ "]"
  | map fields => "\x7b" ++ ",".intercalate (renderFields fields) ++ "\x7d"

def renderItems : List Value → List String
  | [] => []
  | v :: rest => v.render :: renderItems rest

def renderFields : List (String × Value) → List String
  | [] => []
  | f :: rest => renderField f :: renderFields rest

def renderField : String × Value → String
  | (key, v) => renderText key ++ ":" ++ v.render

end

end Value

end Sortie.Json
