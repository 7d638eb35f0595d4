import Sortie.Task.Kind
import Sortie.Plan.Basic

/-!
# Tasks

A task is `inactive` until it is activated, `active` while it is driven, and
`complete` from the update in which its elapsed time reaches its limit until it
is closed. Only an active task makes progress.
-/

namespace Sortie

inductive Phase where
  | inactive
  | active
  | complete
deriving DecidableEq, Repr, Inhabited

/-- What a plan fixes about a task for good. -/
structure Profile where
  kind : Kind
  name : String
  nickname : String
  /-- The configured duration, in seconds. -/
  duration : Option Float32
deriving DecidableEq

namespace Profile

def ofEntry (kind : Kind) (e : Entry) : Profile where
  kind := kind
  name := e.name
  nickname := e.nick
  duration := e.params.number32? "duration_sec"

/-- How long the task runs, given the commanded preflight duration; `none` is for ever. -/
def limit (p : Profile) (commanded : Option Float32) : Option Float32 :=
  match p.kind with
  | .preflight => commanded <|> p.duration
  | k => if k.isTimed then p.duration else none

/-- Whether the elapsed time has reached the limit. -/
def expired (p : Profile) (commanded : Option Float32) (elapsed : Float32) : Bool :=
  match p.limit commanded with
  | some limit => limit ≤ elapsed
  | none => false

end Profile

structure Task where
  profile : Profile
  phase : Phase := .inactive
  /-- The time spent active since the last activation, in seconds. -/
  elapsed : Float32 := 0
deriving DecidableEq

namespace Task

def ofEntry (kind : Kind) (e : Entry) : Task where
  profile := .ofEntry kind e

abbrev name (t : Task) : String := t.profile.name

abbrev nickname (t : Task) : String := t.profile.nickname

def activate (t : Task) : Task := { t with phase := .active, elapsed := 0 }

def update (dt : Float32) (commanded : Option Float32) (t : Task) : Task :=
  if t.phase = .active then
    { t with
      elapsed := t.elapsed + dt
      phase := if t.profile.expired commanded (t.elapsed + dt) then .complete else .active }
  else t

def close (t : Task) : Task := { t with phase := .inactive }

def isComplete (t : Task) : Bool := t.phase = .complete

section

variable (t : Task) (dt : Float32) (commanded : Option Float32)

@[simp] theorem profile_activate : t.activate.profile = t.profile := rfl

@[simp] theorem phase_activate : t.activate.phase = .active := rfl

@[simp] theorem elapsed_activate : t.activate.elapsed = 0 := rfl

@[simp] theorem profile_close : t.close.profile = t.profile := rfl

@[simp] theorem phase_close : t.close.phase = .inactive := rfl

@[simp] theorem elapsed_close : t.close.elapsed = t.elapsed := rfl

@[simp] theorem profile_update : (t.update dt commanded).profile = t.profile := by
  simp only [update]; split <;> rfl

theorem update_of_ne (h : t.phase ≠ .active) : t.update dt commanded = t := by
  simp [update, h]

end

end Task

end Sortie
