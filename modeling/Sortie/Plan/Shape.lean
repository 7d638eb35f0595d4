import Sortie.Plan.Basic
import Sortie.Json.Document

/-!
# The outer shape of a plan

A written plan is a map with one field for each group, all of them optional, or
a list of the groups in their order. What a group holds is left to the reader of
groups. A strict reader refuses other fields, a lenient one passes over them.
-/

namespace Sortie.Groups

open Json (Doc Members Fields Fault)

def passOver : Doc → Except Fault Unit
  | .skipped => .ok ()
  | d => do discard d.value?

variable {α : Type}

/-- The fields of a plan from here on; `seen` are the groups before them. -/
def ofFields (strict : Bool) (group : Doc → Except Fault (List α)) (gs : Groups α)
    (seen : List Group) : Fields → Except Fault (Groups α)
  | .done _ => .ok gs
  | .gap f => .error f
  | .field key keyEnd value _ rest =>
    match Group.ofLabel? key with
    | some g =>
      if g ∈ seen then .error (.mismatch (.duplicateField key) keyEnd)
      else do ofFields strict group (gs.set g (← group value)) (g :: seen) rest
    | none =>
      if strict then .error (.mismatch (.unknownField key Group.labels) keyEnd)
      else do
        passOver value
        ofFields strict group gs seen rest

/-- The members of a plan that is written as a list, for the groups that are left. -/
def ofMembers (group : Doc → Except Fault (List α)) (gs : Groups α) :
    List Group → Members → Except Fault (Groups α)
  | [], m => do
    m.finish
    return gs
  | _ :: _, .done _ => .ok gs
  | _ :: _, .gap g => .error g.fault
  | g :: more, .member _ value rest => do ofMembers group (gs.set g (← group value)) more rest

def ofDoc (strict : Bool) (expected : String) (group : Doc → Except Fault (List α)) :
    Doc → Except Fault (Groups α)
  | .map _ fields => ofFields strict group {} [] fields
  | .list _ members => ofMembers group {} Group.all members
  | d => .error (d.misfit expected)

end Sortie.Groups
