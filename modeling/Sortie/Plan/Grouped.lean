import Sortie.Plan.Shape
import Sortie.Plan.Error

/-!
# Plans as maps of records

The format in which missions are written: each group maps the names of its
tasks to their records. The whole text is read first; only then are the records
looked at, group by group and in order, and the first that is none is the error.
-/

namespace Sortie

namespace Json.Value

def found : Value → Found
  | scalar s => .scalar s
  | list _ => .list
  | map _ => .map

end Json.Value

namespace Param

def ofValue? : Json.Value → Option Param
  | .scalar (.bool b) => some (flag b)
  | .scalar (.number n) => some (number n.toFloat)
  | .scalar (.text s) => some (text s)
  | _ => none

end Param

/-- What is declared of a task besides its name. -/
structure Record where
  task : Option String := none
  nickname : Option String := none
  params : Params := ∅
deriving DecidableEq

namespace Record

open Json (Value Mismatch)

def fieldNames : List String := ["task", "nickname", "params"]

def text : Value → Except Mismatch (Option String)
  | .scalar .null => .ok none
  | .scalar (.text s) => .ok (some s)
  | v => .error (.kind v.found "a string")

def addParams (p : Params) : List (String × Value) → Except Mismatch Params
  | [] => .ok p
  | (key, v) :: rest =>
    match Param.ofValue? v with
    | some x => addParams (p.insert key x) rest
    | none => .error .noVariant

def paramsOf : Value → Except Mismatch Params
  | .map fields => addParams ∅ fields
  | v => .error (.kind v.found "a map")

def set (r : Record) (key : String) (v : Value) : Except Mismatch Record :=
  match key with
  | "task" => do return { r with task := ← text v }
  | "nickname" => do return { r with nickname := ← text v }
  | "params" => do return { r with params := ← paramsOf v }
  | _ => .error (.unknownField key fieldNames)

def ofFields (r : Record) : List (String × Value) → Except Mismatch Record
  | [] => .ok r
  | (key, v) :: rest => do ofFields (← r.set key v) rest

/-- A record that is written as a list of its fields in order; trailing ones may be missing. -/
def ofItems (r : Record) : List String → List Value → Except Mismatch Record
  | key :: keys, v :: rest => do ofItems (← r.set key v) keys rest
  | _, _ => .ok r

def ofValue : Value → Except Mismatch Record
  | .map fields => ofFields {} fields
  | .list items => do
    let r ← ofItems {} fieldNames items
    if fieldNames.length < items.length then
      .error (.length items.length "fewer elements in array")
    else return r
  | v => .error (.kind v.found "struct RawEntry")

def entry (name : String) (r : Record) : Entry :=
  { name, task := r.task, nickname := r.nickname, params := r.params }

end Record

namespace Plan.Grouped

/-- A name and what stands for its record. -/
abbrev Item := String × Json.Value

/-- The items of a group in order; a repeated name keeps its place and takes the last value. -/
def items : Json.Doc → Except Json.Fault (List Item)
  | .map _ fields => fields.values? []
  | d => .error (d.misfit "a map")

def groups (d : Json.Doc) : Except Json.Fault (Groups Item) :=
  Groups.ofDoc true "struct RawConfig" items d

def entries (g : Group) : List Item → Except PlanError (List Entry)
  | [] => .ok []
  | (name, v) :: rest =>
    match Record.ofValue v with
    | .ok r => do return r.entry name :: (← entries g rest)
    | .error reason => .error (.invalidEntry g name reason)

/-- The plan of three groups of items, all of which must be records. -/
def ofGroups (gs : Groups Item) : Except PlanError Plan := do
  return {
    globals := ← entries .global gs.globals
    sequence := ← entries .sequential gs.sequence
    standby := ← entries .standby gs.standby }

def parse (text : String) : Except PlanError Plan :=
  match Json.Doc.read (fun _ _ => true) groups text with
  | .ok gs => ofGroups gs
  | .error f => .error (.malformed text f)

/-- The plan in a file, given what reading the file came to. -/
def ofFile (path : String) (content : Except FileError ByteArray) : Except PlanError Plan :=
  match content with
  | .error e => .error (.unreadable path e)
  | .ok bytes =>
    match String.fromUTF8? bytes with
    | some text => parse text
    | none => .error (.unreadable path .notText)

/-- Loads a plan with whatever reads files. -/
def load {m : Type → Type} [Monad m] (read : String → m (Except FileError ByteArray))
    (path : String) : m (Except PlanError Plan) := do
  return ofFile path (← read path)

end Plan.Grouped

end Sortie
