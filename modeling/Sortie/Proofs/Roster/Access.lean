import Sortie.Proofs.Roster.Moves

/-!
# Access to the tasks

Elsewhere a roster makes do when a position holds no task: it finds nothing there, and
changes nothing. Here such an access ends everything with that position. Where all
handles are valid this never happens, and the answers are the same.
-/

namespace Sortie

/-- What comes of strict accesses: an answer, or the first position that held no task. -/
abbrev Access (α : Type) := Except TaskId α

theorem Access.bind_eq {α β : Type} {a : Access α} {x : α} (h : a = .ok x) (f : α → Access β) :
    a >>= f = f x := by
  rw [h]
  rfl

namespace Roster

structure Valid (r : Roster) : Prop where
  globals : ∀ id ∈ r.globals, id < r.size
  standby : ∀ id ∈ r.standby, id < r.size
  stack : ∀ id ∈ r.stack, id < r.size

namespace Strict

def task (id : TaskId) (r : Roster) : Access Task :=
  match r.task? id with
  | some x => .ok x
  | none => .error id

def modify (id : TaskId) (f : Task → Task) (r : Roster) : Access Roster := do
  let _ ← task id r
  return r.modify id f

def frontTask? (r : Roster) : Access (Option Task) :=
  match r.front? with
  | none => return none
  | some id => do return some (← task id r)

def firstMatch (p : Task → Bool) (r : Roster) : List TaskId → Access (Option TaskId)
  | [] => return none
  | id :: ids => do
    let x ← task id r
    if p x then return some id else firstMatch p r ids

def find? (t : Target) (r : Roster) : Access (Option TaskId) :=
  if t.key = "" then return none else firstMatch t.fits r r.standby

def seek (t : Target) (r : Roster) : Access Whereabouts := do
  let front ← frontTask? r
  if front.any t.fits then return .atFront
  else do
    match ← find? t r with
    | some id => return .standby id
    | none => return .nowhere

def pop (r : Roster) : Access Roster :=
  match r.stack with
  | [] => return r
  | id :: rest => do return { ← modify id Task.close r with stack := rest }

end Strict

variable {r : Roster} {id : TaskId} {x : Task} {f : Task → Task}

theorem Sound.valid (h : r.Sound) : r.Valid where
  globals id hId := h.lt_size id (.inl hId)
  standby id hId := h.lt_size id (.inr (.inl hId))
  stack id hId := h.lt_size id (.inr (.inr hId))

namespace Valid

theorem modify (h : r.Valid) (id : TaskId) (f : Task → Task) : (r.modify id f).Valid where
  globals j hj := by rw [size_modify]; exact h.globals j hj
  standby j hj := by rw [size_modify]; exact h.standby j hj
  stack j hj := by rw [size_modify]; exact h.stack j hj

theorem pop (h : r.Valid) : r.pop.Valid where
  globals j hj := by rw [Akin.of_pop.size]; exact h.globals j (globals_pop r ▸ hj)
  standby j hj := by rw [Akin.of_pop.size]; exact h.standby j (standby_pop r ▸ hj)
  stack j hj := by rw [Akin.of_pop.size]; exact h.stack j (List.mem_of_mem_tail (stack_pop r ▸ hj))

theorem front_lt (h : r.Valid) (hFront : r.front? = some id) : id < r.size :=
  h.stack id (List.mem_of_mem_head? hFront)

end Valid

namespace Strict

theorem task_eq (h : r.task? id = some x) : task id r = .ok x := by
  rw [task, h]

theorem exists_task_eq (h : id < r.size) : ∃ x, r.task? id = some x ∧ task id r = .ok x := by
  obtain ⟨x, hx⟩ := exists_task?_iff.mpr h
  exact ⟨x, hx, task_eq hx⟩

theorem modify_eq (h : id < r.size) : modify id f r = .ok (r.modify id f) := by
  obtain ⟨x, -, hTask⟩ := exists_task_eq h
  rw [modify, Access.bind_eq hTask]
  rfl

theorem frontTask?_eq (h : r.Valid) : frontTask? r = .ok r.frontTask? := by
  rw [frontTask?.eq_def, Roster.frontTask?]
  cases hFront : r.front? with
  | none => rfl
  | some id =>
    obtain ⟨x, hx, hTask⟩ := exists_task_eq (h.front_lt hFront)
    rw [Option.bind_some, hx]
    exact Access.bind_eq hTask _

theorem firstMatch_eq {ids : List TaskId} (h : ∀ id ∈ ids, id < r.size) (p : Task → Bool) :
    firstMatch p r ids = .ok (r.firstMatch ids p) := by
  induction ids with
  | nil => rfl
  | cons id ids ih =>
    obtain ⟨x, hx, hTask⟩ := exists_task_eq (h id List.mem_cons_self)
    have hRest := ih fun j hj => h j (List.mem_cons_of_mem _ hj)
    rw [Roster.firstMatch] at hRest ⊢
    rw [firstMatch, Access.bind_eq hTask, hRest, List.find?_cons, hx, Option.any_some]
    cases p x <;> rfl

theorem find?_eq (h : r.Valid) (t : Target) : find? t r = .ok (r.find? t) := by
  rw [find?, Roster.find?, firstMatch_eq h.standby]
  split <;> rfl

theorem seek_eq (h : r.Valid) (t : Target) : seek t r = .ok (r.seek t) := by
  rw [seek, Roster.seek, Access.bind_eq (frontTask?_eq h)]
  split
  · rfl
  · rw [Access.bind_eq (find?_eq h t)]
    cases r.find? t <;> rfl

theorem pop_eq (h : r.Valid) : pop r = .ok r.pop := by
  rw [pop.eq_def, Roster.pop.eq_def]
  cases hStack : r.stack with
  | nil => rfl
  | cons id rest => exact Access.bind_eq (modify_eq (h.stack id (by simp [hStack]))) _

end Strict

end Roster

end Sortie
