import Sortie.Proofs.Roster.Catalog
import Sortie.Mission.Basic

/-!
# The elementary changes of a roster

Whatever a mission does to its roster is a sequence of moves, each with the
tasks that it puts on the stack and the hooks that it calls. What every move
keeps, every run keeps.
-/

namespace Sortie

namespace Roster

def raise (id : TaskId) (r : Roster) : Roster := (r.push id).modify id Task.activate

section

variable (r : Roster) (id : TaskId) (f g : Task → Task)

@[simp] theorem stack_raise : (r.raise id).stack = id :: r.stack := rfl

theorem task?_raise (j : TaskId) :
    (r.raise id).task? j = if id = j then (r.task? j).map Task.activate else r.task? j := by
  rw [raise, task?_modify, task?_push]

theorem task?_raise_of_ne {j : TaskId} (h : id ≠ j) : (r.raise id).task? j = r.task? j := by
  rw [task?_raise, if_neg h]

theorem task?_modify_of_ne {j : TaskId} (h : id ≠ j) : (r.modify id f).task? j = r.task? j := by
  rw [task?_modify, if_neg h]

theorem task?_modify_self : (r.modify id f).task? id = (r.task? id).map f := by
  rw [task?_modify, if_pos rfl]

theorem modify_modify : (r.modify id f).modify id g = r.modify id (g ∘ f) := by
  simp [modify, List.modify_modify_eq]

theorem pop_of_stack_eq {rest : List TaskId} (h : r.stack = id :: rest) :
    r.pop = { r.modify id Task.close with stack := rest } := by
  simp [pop, h]

theorem task?_pop {rest : List TaskId} (h : r.stack = id :: rest) (j : TaskId) :
    r.pop.task? j = if id = j then (r.task? j).map Task.close else r.task? j := by
  rw [pop_of_stack_eq r id h]
  exact task?_modify r id Task.close j

theorem task?_pop_of_ne {rest : List TaskId} (h : r.stack = id :: rest) {j : TaskId} (hj : id ≠ j) :
    r.pop.task? j = r.task? j := by
  rw [task?_pop r id h, if_neg hj]

theorem stack_pop_of_eq {rest : List TaskId} (h : r.stack = id :: rest) : r.pop.stack = rest := by
  rw [stack_pop, h, List.tail_cons]

@[simp] theorem globals_pop : r.pop.globals = r.globals := by
  unfold pop; split <;> rfl

@[simp] theorem standby_pop : r.pop.standby = r.standby := by
  unfold pop; split <;> rfl

end

variable {r s u : Roster} {ps qs : List TaskId} {cs ds : List Call} {id : TaskId}

theorem modify_congr {f g : Task → Task} {x : Task} (hTask : r.task? id = some x) (h : f x = g x) :
    r.modify id f = r.modify id g := by
  have hTasks : r.tasks.modify id f = r.tasks.modify id g := by
    apply List.ext_getElem?
    intro j
    rw [List.getElem?_modify, List.getElem?_modify]
    split
    · rename_i hj
      subst hj
      rw [task?] at hTask
      simp [hTask, h]
    · rfl
  rw [modify, modify, hTasks]

theorem modify_eq_self {f : Task → Task} {x : Task} (hTask : r.task? id = some x) (h : f x = x) :
    r.modify id f = r := by
  rw [modify_congr (g := (fun x => x)) hTask h, modify]
  exact congrArg (fun l => { r with tasks := l }) (List.modify_id id r.tasks)

theorem Akin.of_raise : Akin r (r.raise id) := by
  have h : Akin (r.push id) (r.raise id) := of_modify (f := Task.activate) fun _ => rfl
  exact ⟨h.size, h.globals, h.standby, h.profile⟩

theorem Akin.of_pop : Akin r r.pop := by
  unfold pop
  split
  · exact refl r
  · rename_i id rest _
    have h : Akin r (r.modify id Task.close) := of_modify (f := Task.close) fun _ => rfl
    exact ⟨h.size, h.globals, h.standby, h.profile⟩

structure Sound (r : Roster) : Prop where
  lt_size : ∀ id, id ∈ r.globals ∨ id ∈ r.standby ∨ id ∈ r.stack → id < r.size
  not_global : ∀ id, id ∈ r.standby ∨ id ∈ r.stack → id ∉ r.globals

namespace Sound

theorem exists_task? (h : r.Sound) (hId : id ∈ r.stack) : ∃ x, r.task? id = some x :=
  exists_task?_iff.mpr (h.lt_size id (.inr (.inr hId)))

theorem of_akin (h : r.Sound) (hAkin : Akin r s)
    (hStack : ∀ id ∈ s.stack, id ∈ r.standby ∨ id ∈ r.stack) : s.Sound where
  lt_size id hId := by
    rw [hAkin.size]
    rw [hAkin.globals, hAkin.standby] at hId
    rcases hId with hId | hId | hId
    · exact h.lt_size id (.inl hId)
    · exact h.lt_size id (.inr (.inl hId))
    · exact h.lt_size id (.inr (hStack id hId))
  not_global id hId := by
    rw [hAkin.globals]
    rw [hAkin.standby] at hId
    rcases hId with hId | hId
    · exact h.not_global id (.inl hId)
    · exact h.not_global id (hStack id hId)

end Sound

/-- One elementary change, with the tasks that it puts on the stack and the hooks that it calls. -/
inductive Move (r : Roster) : List TaskId → List Call → Roster → Prop where
  | push {t : Target} {id : TaskId} (h : r.seek t = .standby id) :
      Move r [id] [⟨id, .activate⟩] (r.raise id)
  | pop {id : TaskId} {rest : List TaskId} (h : r.stack = id :: rest) :
      Move r [] [⟨id, .close⟩] r.pop
  | activate {id : TaskId} {rest : List TaskId} (h : r.stack = id :: rest) :
      Move r [] [⟨id, .activate⟩] (r.modify id Task.activate)
  | ask {id : TaskId} {rest : List TaskId} (h : r.stack = id :: rest) :
      Move r [] [⟨id, .isComplete⟩] r
  | updateFront {id : TaskId} {rest : List TaskId} (h : r.stack = id :: rest) (dt : Float32)
      (commanded : Option Float32) : Move r [] [⟨id, .update⟩] (r.modify id (Task.update dt commanded))
  | updateGlobal {id : TaskId} (h : id ∈ r.globals) (dt : Float32) (commanded : Option Float32) :
      Move r [] [⟨id, .update⟩] (r.modify id (Task.update dt commanded))

namespace Move

theorem akin (h : Move r ps cs s) : Akin r s := by
  cases h with
  | push => exact Akin.of_raise
  | pop => exact Akin.of_pop
  | activate => exact Akin.of_modify (f := Task.activate) fun _ => rfl
  | ask => exact Akin.refl r
  | updateFront _ dt commanded => exact Akin.of_modify fun x => Task.profile_update x dt commanded
  | updateGlobal _ dt commanded => exact Akin.of_modify fun x => Task.profile_update x dt commanded

theorem stack_subset (h : Move r ps cs s) : ∀ id ∈ s.stack, id ∈ r.standby ∨ id ∈ r.stack := by
  intro id hId
  cases h with
  | push h =>
    rcases List.mem_cons.mp hId with rfl | hId
    · exact .inl (mem_standby_of_seek h)
    · exact .inr hId
  | pop h =>
    rw [stack_pop] at hId
    exact .inr (List.mem_of_mem_tail hId)
  | activate | ask | updateFront | updateGlobal => exact .inr hId

theorem sound (h : Move r ps cs s) (hr : r.Sound) : s.Sound :=
  hr.of_akin h.akin h.stack_subset

end Move

inductive Moves : Roster → List TaskId → List Call → Roster → Prop where
  | nil (r : Roster) : Moves r [] [] r
  | cons {r s u : Roster} {ps qs : List TaskId} {cs ds : List Call} (h : Move r ps cs s)
      (rest : Moves s qs ds u) : Moves r (ps ++ qs) (cs ++ ds) u

namespace Moves

theorem single (h : Move r ps cs s) : Moves r ps cs s := by
  simpa using Moves.cons h (nil s)

theorem trans (h : Moves r ps cs s) (h' : Moves s qs ds u) : Moves r (ps ++ qs) (cs ++ ds) u := by
  induction h with
  | nil => exact h'
  | cons head _ ih =>
    rw [List.append_assoc, List.append_assoc]
    exact .cons head (ih h')

theorem akin (h : Moves r ps cs s) : Akin r s := by
  induction h with
  | nil r => exact Akin.refl r
  | cons head _ ih => exact head.akin.trans ih

theorem sound (h : Moves r ps cs s) (hr : r.Sound) : s.Sound := by
  induction h with
  | nil => exact hr
  | cons head _ ih => exact ih (head.sound hr)

end Moves

end Roster

end Sortie
