import Mathlib.Data.List.Find
import Sortie.Proofs.Roster.Moves

/-!
# What lies beyond the global tasks

The global tasks hold the first positions of a roster. Without them, and with all
other positions moved down, a roster finds the same tasks and changes in the same
way.
-/

namespace Sortie

namespace Whereabouts

def beyond (k : Nat) : Whereabouts → Whereabouts
  | .standby id => .standby (id - k)
  | w => w

end Whereabouts

namespace Roster

def beyond (k : Nat) (r : Roster) : Roster where
  tasks := r.tasks.drop k
  standby := r.standby.map (· - k)
  stack := r.stack.map (· - k)

/-- The first `k` tasks are those that are neither in the catalog nor on the stack. -/
structure Apart (k : Nat) (r : Roster) : Prop where
  globals : ∀ id ∈ r.globals, id < k
  standby : ∀ id ∈ r.standby, k ≤ id
  stack : ∀ id ∈ r.stack, k ≤ id

variable {r s : Roster} {ps : List TaskId} {cs : List Call} {id k : Nat} {f : Task → Task}

namespace Apart

theorem of_akin (h : r.Apart k) (hAkin : r.Akin s)
    (hStack : ∀ id ∈ s.stack, id ∈ r.standby ∨ id ∈ r.stack) : s.Apart k where
  globals := hAkin.globals ▸ h.globals
  standby := hAkin.standby ▸ h.standby
  stack id hId := (hStack id hId).elim (h.standby id) (h.stack id)

theorem modify (h : r.Apart k) (id : TaskId) (f : Task → Task) : (r.modify id f).Apart k :=
  ⟨h.globals, h.standby, h.stack⟩

theorem moves (h : r.Apart k) (hMoves : r.Moves ps cs s) : s.Apart k := by
  induction hMoves with
  | nil => exact h
  | cons hMove _ ih => exact ih (h.of_akin hMove.akin hMove.stack_subset)

end Apart

section

variable (r k)

@[simp] theorem task?_beyond (j : Nat) : (r.beyond k).task? j = r.task? (k + j) :=
  List.getElem?_drop

@[simp] theorem stack_beyond : (r.beyond k).stack = r.stack.map (· - k) := rfl

@[simp] theorem front?_beyond : (r.beyond k).front? = r.front?.map (· - k) :=
  List.head?_map

end

theorem Apart.stack_eq (h : r.Apart k) : r.stack = (r.beyond k).stack.map (k + ·) := by
  rw [beyond, List.map_map]
  refine (List.map_id _).symm.trans (List.map_congr_left fun id hId => ?_)
  exact (Nat.add_sub_cancel' (h.stack id hId)).symm

theorem task?_beyond_sub (hId : k ≤ id) : (r.beyond k).task? (id - k) = r.task? id := by
  rw [task?_beyond, Nat.add_sub_cancel' hId]

theorem beyond_modify (hId : k ≤ id) :
    (r.modify id f).beyond k = (r.beyond k).modify (id - k) f := by
  simp only [beyond, modify, List.drop_modify_of_ge f id k r.tasks hId]

theorem beyond_modify_of_lt (hId : id < k) : (r.modify id f).beyond k = r.beyond k := by
  simp only [beyond, modify, List.drop_modify_of_lt f id k r.tasks hId]

section

variable (h : r.Apart k)

include h

theorem beyond_pop : r.pop.beyond k = (r.beyond k).pop := by
  cases hStack : r.stack with
  | nil => simp only [pop, stack_beyond, hStack, List.map_nil]
  | cons id rest =>
    have hBeyond : (r.beyond k).stack = (id - k) :: rest.map (· - k) := by
      rw [stack_beyond, hStack, List.map_cons]
    have hId : k ≤ id := h.stack id (by simp [hStack])
    rw [pop_of_stack_eq r id hStack, pop_of_stack_eq _ _ hBeyond, ← beyond_modify hId]
    rfl

theorem frontTask?_beyond : (r.beyond k).frontTask? = r.frontTask? := by
  rw [frontTask?, frontTask?, front?_beyond]
  cases hFront : r.front? with
  | none => rfl
  | some id => exact task?_beyond_sub (h.stack id (List.mem_of_mem_head? hFront))

theorem find?_beyond (t : Target) : (r.beyond k).find? t = (r.find? t).map (· - k) := by
  rw [find?, find?]
  split
  · rfl
  · calc (r.beyond k).firstMatch (r.standby.map (· - k)) t.fits
      _ = (r.standby.find? fun id => ((r.beyond k).task? (id - k)).any t.fits).map (· - k) :=
        List.find?_map
      _ = (r.firstMatch r.standby t.fits).map (· - k) := by
        refine congrArg _ (List.find?_congr fun id hId => ?_)
        rw [task?_beyond_sub (h.standby id hId)]

theorem seek_beyond (t : Target) : (r.beyond k).seek t = (r.seek t).beyond k := by
  rw [seek, seek, frontTask?_beyond h, find?_beyond h]
  split
  · rfl
  · cases r.find? t <;> rfl

end

end Roster

end Sortie
