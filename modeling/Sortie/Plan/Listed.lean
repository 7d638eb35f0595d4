import Sortie.Plan.Grouped
import Sortie.Json.Writer

/-!
# Plans as lists of entries

The format in which plans are stored: each group is a list of entries, and an
entry holds its name beside its other fields. Fields that no one knows are
passed over. In what is written all groups stand, and of an entry only what is
not empty.
-/

namespace Sortie

namespace Entry

open Json (Doc Members Fields Fault)

def fieldNames : List String := ["name", "task", "nickname", "params"]

/-- An entry of which some fields have been read. -/
structure Draft where
  name : Option String := none
  record : Record := {}

def addParams (p : Params) : Fields → Except Fault Params
  | .done _ => .ok p
  | .gap f => .error f
  | .field key _ value valueEnd rest => do
    match Param.ofValue? (← value.value?) with
    | some x => addParams (p.insert key x) rest
    | none => .error (.mismatch .noVariant valueEnd)

def paramsOf : Doc → Except Fault Params
  | .map _ fields => addParams ∅ fields
  | d => .error (d.misfit "a map")

namespace Draft

def set (d : Draft) (key : String) (value : Doc) : Except Fault Draft :=
  match key with
  | "name" => do return { d with name := some (← value.text?) }
  | "task" => do return { d with record.task := ← value.optionalText? }
  | "nickname" => do return { d with record.nickname := ← value.optionalText? }
  | _ => do return { d with record.params := ← paramsOf value }

/-- The entry, unless it has no name; then the answer is the given fault. -/
def finish (d : Draft) (nameless : Fault) : Except Fault Entry :=
  match d.name with
  | some name => .ok (d.record.entry name)
  | none => .error nameless

end Draft

/-- The fields of an entry from here on; `seen` are the known ones before them. -/
def ofFields (d : Draft) (seen : List String) : Fields → Except Fault Entry
  | .done stop => d.finish (.mismatch (.missingField "name") stop)
  | .gap f => .error f
  | .field key keyEnd value _ rest =>
    if key ∈ fieldNames then
      if key ∈ seen then .error (.mismatch (.duplicateField key) keyEnd)
      else do ofFields (← d.set key value) (key :: seen) rest
    else do
      Groups.passOver value
      ofFields d seen rest

/-- The members of an entry that is written as a list, for the fields that are left. -/
def ofMembers (d : Draft) : List String → Members → Except Fault Entry
  | _ :: _, .done stop =>
    d.finish (.mismatch (.length 0 "struct TaskEntry with 4 elements") stop)
  | _ :: _, .gap g => .error g.fault
  | key :: keys, .member _ value rest => do ofMembers (← d.set key value) keys rest
  | [], m => do
    m.finish
    d.finish (.mismatch (.missingField "name") 0)

def ofDoc : Doc → Except Fault Entry
  | .map _ fields => ofFields {} [] fields
  | .list _ members => ofMembers {} fieldNames members
  | d => .error (d.misfit "struct TaskEntry")

end Entry

namespace Plan.Listed

open Json (Doc Members Fault Value)

def entriesOf : Members → Except Fault (List Entry)
  | .done _ => .ok []
  | .gap g => .error g.fault
  | .member _ value rest => do
    let e ← Entry.ofDoc value
    return e :: (← entriesOf rest)

def entries : Doc → Except Fault (List Entry)
  | .list _ members => entriesOf members
  | d => .error (d.misfit "a sequence")

def ofDoc (d : Doc) : Except Fault Plan :=
  Groups.ofDoc false "struct MissionConfig" entries d

/-- The keys that matter: those of the plan itself, of entries, and of what lies deeper. -/
def interest : Json.Interest
  | 1, key => key ∈ Group.labels
  | 3, key => key ∈ Entry.fieldNames
  | _, _ => true

def parse (text : String) : Except Fault Plan :=
  Doc.read interest ofDoc text

end Plan.Listed

namespace Param

def toValue : Param → Json.Value
  | flag b => .scalar (.bool b)
  | number x => .scalar (.number (.real x))
  | text s => .scalar (.text s)

end Param

namespace Entry

def textField (key : String) : Option String → List (String × Json.Value)
  | some s => [(key, .scalar (.text s))]
  | none => []

def paramsField (p : Params) : List (String × Json.Value) :=
  if p.entries = [] then [] else [("params", .map (p.entries.map fun e => (e.1, e.2.toValue)))]

def toValue (e : Entry) : Json.Value :=
  .map (("name", .scalar (.text e.name)) ::
    (textField "task" e.task ++ textField "nickname" e.nickname ++ paramsField e.params))

end Entry

namespace Plan.Listed

def toValue (p : Plan) : Json.Value :=
  .map (Group.all.map fun g => (g.label, .list ((p.get g).map Entry.toValue)))

def render (p : Plan) : String := (toValue p).render

end Plan.Listed

end Sortie
