import Sortie.Plan.Basic
import Sortie.Json.Fault

/-!
# Why a plan cannot be used
-/

namespace Sortie

inductive FileError where
  | notFound
  | isDirectory
  | notDirectory
  | nameTooLong
  /-- A path cannot hold the character zero. -/
  | zeroInPath
  | notText
  | other (description : String)
deriving DecidableEq, Repr

namespace FileError

def message : FileError → String
  | notFound => "No such file or directory (os error 2)"
  | isDirectory => "Is a directory (os error 21)"
  | notDirectory => "Not a directory (os error 20)"
  | nameTooLong => "File name too long (os error 36)"
  | zeroInPath => "file name contained an unexpected NUL byte"
  | notText => "stream did not contain valid UTF-8"
  | other description => description

end FileError

inductive PlanError where
  | unreadable (path : String) (e : FileError)
  /-- The text is no plan. -/
  | malformed (text : String) (f : Json.Fault)
  /-- The record of an entry is none. -/
  | invalidEntry (group : Group) (name : String) (reason : Json.Mismatch)
deriving DecidableEq

namespace PlanError

def message : PlanError → String
  | unreadable path e => "Failed to read mission config " ++ path ++ ": " ++ e.message
  | malformed text f => "Invalid mission config: " ++ f.message text
  | invalidEntry group name reason =>
    "Invalid task entry '" ++ name ++ "' in " ++ group.label ++ ": " ++ reason.message

end PlanError

end Sortie
