import Sortie.Text.Blank
import Sortie.Decimal.Numeral
import Sortie.Geo

/-!
# Commands

A command is one line of text: comma separated tokens, blanks around them
ignored, with an optional leading `task` token. The first token is the verb and
the others are its arguments. Numbers must be finite.
-/

namespace Sortie

inductive Command where
  | home
  /-- Without a target, the place where the vehicle is. -/
  | circle (target : Option GeoPoint)
  | idle
  | resume
  /-- Without a heading, into the wind. -/
  | land (heading : Option Float32)
  | preflight (duration : Float32)
  | calibrate
  | route
  | parametric
  /-- Retires the front task, whatever it is. -/
  | pop
deriving DecidableEq

/-- Why a text is no command. -/
inductive CommandError where
  | empty
  | unknownVerb
  | badArity
  | badNumber
deriving DecidableEq, Repr

namespace CommandError

def message : CommandError → String
  | empty => "empty command"
  | unknownVerb => "unknown verb"
  | badArity => "wrong number of arguments"
  | badNumber => "invalid numeric argument"

end CommandError

namespace Command

/-- The most tokens a text may have, the optional leading one included. -/
def maxTokens : Nat := 8

def verbs : List String :=
  ["home", "circle", "idle", "resume", "land", "preflight", "calibrate", "route",
   "parametric", "pop"]

/-- The pieces between the commas, without the blanks around them. -/
def tokens (text : String) : List String :=
  (text.toList.splitOn ',').map fun piece => String.ofList (Text.trimChars piece)

def dropFraming : List String → List String
  | "task" :: rest => rest
  | all => all

def number (token : String) : Except CommandError Float :=
  match Decimal.float? token with
  | some x => if x.isFinite then .ok x else .error .badNumber
  | none => .error .badNumber

def number32 (token : String) : Except CommandError Float32 :=
  match Decimal.float32? token with
  | some x => if x.isFinite then .ok x else .error .badNumber
  | none => .error .badNumber

def ofVerb (verb : String) (args : List String) : Except CommandError Command :=
  match verb, args with
  | "home", [] => .ok .home
  | "circle", [] => .ok (.circle none)
  | "circle", [lon, lat] => do
    let lon ← number lon
    let lat ← number lat
    return .circle (some { lon, lat })
  | "idle", [] => .ok .idle
  | "resume", [] => .ok .resume
  | "land", [] => .ok (.land none)
  | "land", [heading] => do return .land (some (← number32 heading))
  | "preflight", [duration] => do return .preflight (← number32 duration)
  | "calibrate", [] => .ok .calibrate
  | "route", [] => .ok .route
  | "parametric", [] => .ok .parametric
  | "pop", [] => .ok .pop
  | "", _ => .error .empty
  | verb, _ => .error (if verb ∈ verbs then .badArity else .unknownVerb)

def ofTokens : List String → Except CommandError Command
  | [] => .error .empty
  | verb :: args => ofVerb verb args

/-- The command written by a text; too many tokens are refused before anything is looked at. -/
def parse (text : String) : Except CommandError Command :=
  if maxTokens < (tokens text).length then .error .badArity
  else ofTokens (dropFraming (tokens text))

end Command

end Sortie
