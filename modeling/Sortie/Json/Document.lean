import Sortie.Json.Number
import Sortie.Json.Text
import Sortie.Json.Skim

/-!
# Documents

A document is a JSON text with the places of its parts, read up to the first
flaw, which then stands where the reading stopped. A reader of documents walks
from the front, so that it finds whichever comes first in the text, a flaw or a
mismatch. `Doc.value?` is the value of a document without flaws.
-/

namespace Sortie.Json

/-- How a list ends that is not closed. -/
inductive Gap where
  /-- Neither a comma nor a bracket follows a member. -/
  | stray (index : Nat)
  /-- The text ends where a comma or a bracket could follow. -/
  | cut (index : Nat)
  /-- The bracket follows a comma. -/
  | closedByComma (index : Nat)
  /-- The text ends behind a comma. -/
  | cutByComma (index : Nat)
  /-- The last member is flawed. -/
  | inside (f : Fault)
deriving DecidableEq

namespace Gap

/-- The fault, for a reader that wanted another member or the end. -/
def fault : Gap → Fault
  | stray i => .flaw .expectedListEnd i
  | cut i => .flaw (.endOfText .list) i
  | closedByComma i => .flaw .trailingComma i
  | cutByComma i => .flaw (.endOfText .value) i
  | inside f => f

/-- The fault, for a reader that wanted the end. -/
def surplus : Gap → Fault
  | stray i => .flaw .trailingCharacters i
  | cut i => .flaw (.endOfText .list) i
  | closedByComma i => .flaw .trailingComma i
  | cutByComma i => .flaw .trailingCharacters i
  | inside f => f

end Gap

mutual

inductive Doc where
  /-- `stop` is the place behind the scalar. -/
  | scalar (s : Scalar) (stop : Nat)
  /-- `start` is the place of the opening bracket. -/
  | list (start : Nat) (members : Members)
  | map (start : Nat) (fields : Fields)
  /-- A value that was passed over. -/
  | skipped
  | broken (f : Fault)

inductive Members where
  /-- `stop` is the place behind the closing bracket. -/
  | done (stop : Nat)
  | gap (g : Gap)
  | member (start : Nat) (value : Doc) (rest : Members)

inductive Fields where
  | done (stop : Nat)
  | gap (f : Fault)
  /--
  `keyEnd` and `valueEnd` are the places of a mismatch that shows behind the key
  and behind the value: over blanks, and over a closing brace.
  -/
  | field (key : String) (keyEnd : Nat) (value : Doc) (valueEnd : Nat) (rest : Fields)

end

/-- How deep brackets may nest. -/
def maxDepth : Nat := 127

/-- Which fields are read: those of a map at a depth that bear a key. All others are passed over. -/
abbrev Interest := Nat → String → Bool

namespace Doc

def scanScalar (c : Cursor) : Scan Scalar :=
  match c.rest with
  | [] => .error (.flaw (.endOfText .value) c.index)
  | 'n' :: _ => (c.word ['n', 'u', 'l', 'l']).map fun c => (.null, c)
  | 't' :: _ => (c.word ['t', 'r', 'u', 'e']).map fun c => (.bool true, c)
  | 'f' :: _ => (c.word ['f', 'a', 'l', 's', 'e']).map fun c => (.bool false, c)
  | '"' :: rest => (Text.scan ⟨rest, c.index + 1⟩).map fun (s, c) => (.text s, c)
  | '-' :: rest => (Number.scan true ⟨rest, c.index + 1⟩).map fun (n, c) => (.number n, c)
  | d :: _ =>
    if Decimal.isDigit d then (Number.scan false c).map fun (n, c) => (.number n, c)
    else .error (.flaw .expectedValue c.ahead)

def ofScalar (c : Cursor) : Doc × Except Fault Cursor :=
  match scanScalar c with
  | .ok (s, c) => (.scalar s c.index, .ok c)
  | .error f => (.broken f, .error f)

def skip (c : Cursor) : Doc × Except Fault Cursor :=
  match Skim.scan c with
  | .ok c => (.skipped, .ok c)
  | .error f => (.broken f, .error f)

mutual

/-- Every call takes a character or hands on; the fuel is twice the length of the text. -/
def scan (wanted : Interest) : Nat → Nat → Cursor → Doc × Except Fault Cursor
  | 0, _, c =>
    let f := .flaw (.endOfText .value) c.index
    (.broken f, .error f)
  | fuel + 1, depth, c =>
    let c := c.skipBlanks
    match c.rest with
    | '[' :: rest =>
      if maxDepth ≤ depth then
        let f := .flaw .tooDeep c.ahead
        (.broken f, .error f)
      else
        let (members, next) := scanMembers wanted fuel (depth + 1) true ⟨rest, c.index + 1⟩
        (.list c.index members, next)
    | '{' :: rest =>
      if maxDepth ≤ depth then
        let f := .flaw .tooDeep c.ahead
        (.broken f, .error f)
      else
        let (fields, next) := scanFields wanted fuel (depth + 1) true ⟨rest, c.index + 1⟩
        (.map c.index fields, next)
    | _ => ofScalar c

/-- The members from here on; `first` says that none stands before them. -/
def scanMembers (wanted : Interest) : Nat → Nat → Bool → Cursor → Members × Except Fault Cursor
  | 0, _, _, c =>
    let f := .flaw (.endOfText .list) c.index
    (.gap (.inside f), .error f)
  | fuel + 1, depth, first, c =>
    let c := c.skipBlanks
    let gap (g : Gap) : Members × Except Fault Cursor := (.gap g, .error g.fault)
    let member (c : Cursor) : Members × Except Fault Cursor :=
      match scan wanted fuel depth c with
      | (value, .ok next) =>
        let (rest, next) := scanMembers wanted fuel depth false next
        (.member c.index value rest, next)
      | (value, .error f) => (.member c.index value (.gap (.inside f)), .error f)
    match c.rest with
    | [] => gap (.cut c.index)
    | ']' :: rest => (.done (c.index + 1), .ok ⟨rest, c.index + 1⟩)
    | d :: rest =>
      if first then member c
      else if d = ',' then
        let c := Cursor.skipBlanks ⟨rest, c.index + 1⟩
        match c.rest with
        | [] => gap (.cutByComma c.index)
        | ']' :: _ => gap (.closedByComma c.ahead)
        | _ => member c
      else gap (.stray c.ahead)

def scanFields (wanted : Interest) : Nat → Nat → Bool → Cursor → Fields × Except Fault Cursor
  | 0, _, _, c =>
    let f := .flaw (.endOfText .object) c.index
    (.gap f, .error f)
  | fuel + 1, depth, first, c =>
    let c := c.skipBlanks
    let gap (flaw : Flaw) (index : Nat) : Fields × Except Fault Cursor :=
      (.gap (.flaw flaw index), .error (.flaw flaw index))
    let field (c : Cursor) : Fields × Except Fault Cursor :=
      match Text.scan c with
      | .error f => (.gap f, .error f)
      | .ok (key, c) =>
        let keyEnd := c.settle
        let broken (f : Fault) : Fields × Except Fault Cursor :=
          (.field key keyEnd (.broken f) keyEnd (.gap f), .error f)
        let c := c.skipBlanks
        match c.rest with
        | [] => broken (.flaw (.endOfText .object) c.index)
        | ':' :: rest =>
          let c : Cursor := ⟨rest, c.index + 1⟩
          match if wanted depth key then scan wanted fuel depth c else skip c with
          | (value, .ok next) =>
            let (rest, after) := scanFields wanted fuel depth false next
            (.field key keyEnd value next.settle rest, after)
          | (value, .error f) => (.field key keyEnd value keyEnd (.gap f), .error f)
        | _ => broken (.flaw .expectedColon c.ahead)
    match c.rest with
    | [] => gap (.endOfText .object) c.index
    | '}' :: rest => (.done (c.index + 1), .ok ⟨rest, c.index + 1⟩)
    | d :: rest =>
      if first then
        if d = '"' then field ⟨rest, c.index + 1⟩ else gap .keyNotText c.ahead
      else if d = ',' then
        let c := Cursor.skipBlanks ⟨rest, c.index + 1⟩
        match c.rest with
        | [] => gap (.endOfText .value) c.index
        | '"' :: rest => field ⟨rest, c.index + 1⟩
        | '}' :: _ => gap .trailingComma c.ahead
        | _ => gap .keyNotText c.ahead
      else gap .expectedObjectEnd c.ahead

end

/-- The document of a text, and the fault of what follows it, if something does. -/
def ofText (wanted : Interest) (text : String) : Doc × Option Fault :=
  let chars := text.toList
  match scan wanted (2 * chars.length + 2) 0 ⟨chars, 0⟩ with
  | (d, .ok c) =>
    let c := c.skipBlanks
    (d, if c.rest = [] then none else some (.flaw .trailingCharacters c.ahead))
  | (d, .error _) => (d, none)

end Doc

mutual

/-- The value of a document, or its flaw. -/
def Doc.value? : Doc → Except Fault Value
  | .scalar s _ => .ok (.scalar s)
  | .list _ members => do return .list (← members.values?)
  | .map _ fields => do return .map (← fields.values? [])
  | .skipped => .ok (.scalar .null)
  | .broken f => .error f

def Members.values? : Members → Except Fault (List Value)
  | .done _ => .ok []
  | .gap g => .error g.fault
  | .member _ value rest => do
    let v ← value.value?
    return v :: (← rest.values?)

/-- Adds the fields from here on to those before them; of equal keys the last value counts. -/
def Fields.values? (before : List (String × Value)) : Fields → Except Fault (List (String × Value))
  | .done _ => .ok before
  | .gap f => .error f
  | .field key _ value _ rest => do rest.values? (setField key (← value.value?) before)

end

namespace Doc

def misfit (expected : String) : Doc → Fault
  | .scalar s stop => .mismatch (.kind (.scalar s) expected) stop
  | .list start _ => .mismatch (.kind .list expected) start
  | .map start _ => .mismatch (.kind .map expected) start
  | .skipped => .mismatch (.kind (.scalar .null) expected) 0
  | .broken f => f

def text? : Doc → Except Fault String
  | .scalar (.text s) _ => .ok s
  | d => .error (d.misfit "a string")

def optionalText? : Doc → Except Fault (Option String)
  | .scalar .null _ => .ok none
  | d => do return some (← d.text?)

/-- Reads a text with a reader of documents, which may not leave anything behind. -/
def read {α : Type} (wanted : Interest) (reader : Doc → Except Fault α) (text : String) :
    Except Fault α := do
  let (d, trailing) := ofText wanted text
  let a ← reader d
  match trailing with
  | some f => .error f
  | none => .ok a

end Doc

/-- A list with no members left. -/
def Members.finish : Members → Except Fault Unit
  | .done _ => .ok ()
  | .gap g => .error g.surplus
  | .member start _ _ => .error (.flaw .trailingCharacters (start + 1))

end Sortie.Json
