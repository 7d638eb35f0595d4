import Mathlib.Data.List.Chain
import Sortie.Proofs.Mission.History

/-!
# Neighbours on the stack

A task may stand on the stack several times, but never next to itself: an order
pushes a task only if the front does not fit its target, and the task that it
pushes does. So what is taken off the front never uncovers itself.
-/

namespace Sortie

namespace Roster

variable {r s : Roster} {t : Target} {ps : List TaskId} {cs : List Call} {id : TaskId} {x : Task}
  {dt : Float32} {commanded : Option Float32} {report : Report}

def Alternates (r : Roster) : Prop := r.stack.IsChain (· ≠ ·)

theorem front?_ne_of_seek (h : r.seek t = .standby id) : r.front? ≠ some id := by
  intro hFront
  have hNot := (seek_eq_standby_iff.mp h).1
  obtain ⟨x, hTask, hFits⟩ := (isFirst_of_seek h).fits
  rw [frontTask?, hFront, Option.bind_some, hTask] at hNot
  exact hNot hFits

namespace Alternates

theorem of_cons {rest : List TaskId} (h : r.Alternates) (hStack : r.stack = id :: rest) :
    rest.head? ≠ some id ∧ rest.IsChain (· ≠ ·) := by
  rw [Alternates, hStack, List.isChain_cons] at h
  exact ⟨fun hHead => h.1 id hHead rfl, h.2⟩

theorem move (h : r.Alternates) (hMove : r.Move ps cs s) : s.Alternates := by
  cases hMove with
  | activate | ask | updateFront | updateGlobal => exact h
  | push hSeek =>
    refine List.isChain_cons.mpr ⟨?_, h⟩
    rintro id hHead rfl
    exact front?_ne_of_seek hSeek hHead
  | pop hStack =>
    rw [Alternates, stack_pop_of_eq r _ hStack]
    exact (h.of_cons hStack).2

theorem moves (h : r.Alternates) (hMoves : r.Moves ps cs s) : s.Alternates := by
  induction hMoves with
  | nil => exact h
  | cons hMove _ ih => exact ih (h.move hMove)

theorem turn (h : r.Alternates) (hTurn : r.Turn ps cs s) (hClose : ⟨id, .close⟩ ∈ cs) :
    r.front? = some id ∧ s.front? ≠ some id := by
  cases hTurn with
  | keep | push => simp at hClose
  | pop hStack =>
    obtain ⟨rfl, -⟩ := by simpa using hClose
    rw [front?, front?, stack_pop_of_eq r _ hStack, hStack]
    exact ⟨rfl, (h.of_cons hStack).1⟩

end Alternates

/-- No task is closed while it is driven. -/
theorem exists_of_driveCalls_append {f : TaskId} {tail before after : List Call}
    (h : x.driveCalls f ++ tail = before ++ ⟨id, .close⟩ :: after) :
    ∃ between, tail = between ++ ⟨id, .close⟩ :: after := by
  -- the close stands either in the tail or among the calls of the drive itself
  obtain ⟨between, -, hTail⟩ | ⟨driven, hDriven, hRest⟩ := List.append_eq_append_iff.mp h
  · exact ⟨between, hTail⟩
  · cases driven with
    | nil => exact ⟨[], hRest.symm⟩
    | cons c driven =>
      obtain ⟨rfl, -⟩ := List.cons.inj hRest
      have hMem : ⟨id, .close⟩ ∈ x.driveCalls f := by simp [hDriven]
      rw [Task.driveCalls] at hMem
      split at hMem <;> simp at hMem

/-- A drive that closes a task has taken it off the front, and then calls no one but the next. -/
theorem Drive.of_close (h : r.Drive dt commanded report s) {before after : List Call}
    (hCalls : report.calls = before ++ ⟨id, .close⟩ :: after) :
    ∃ rest, r.stack = id :: rest ∧ s.stack = rest ∧
      after = rest.head?.toList.map fun next => ⟨next, .activate⟩ := by
  cases h with
  | absent => simp at hCalls
  | goesOn =>
    obtain ⟨between, hNil⟩ := exists_of_driveCalls_append ((List.append_nil _).trans hCalls)
    simp at hNil
  | ends hStack =>
    obtain ⟨between, hTail⟩ := exists_of_driveCalls_append hCalls
    cases between with
    | nil =>
      obtain ⟨rfl, rfl⟩ := by simpa using hTail
      exact ⟨[], hStack, stack_pop_of_eq (r.modify _ _) _ hStack, rfl⟩
    | cons => simp at hTail
  | @handsOver f next rest _ _ hStack =>
    obtain ⟨between, hTail⟩ := exists_of_driveCalls_append hCalls
    match between with
    | [] =>
      obtain ⟨rfl, rfl⟩ := by simpa using hTail
      exact ⟨next :: rest, hStack, stack_pop_of_eq (r.modify _ _) _ hStack, rfl⟩
    | [_] | _ :: _ :: _ => simp at hTail

theorem Alternates.drive (h : r.Alternates) (hDrive : r.Drive dt commanded report s)
    {before after : List Call} (hCalls : report.calls = before ++ ⟨id, .close⟩ :: after) :
    r.front? = some id ∧ s.front? ≠ some id ∧ ⟨id, .activate⟩ ∉ after := by
  obtain ⟨rest, hStack, rfl, rfl⟩ := hDrive.of_close hCalls
  have hNext : s.stack.head? ≠ some id := (h.of_cons hStack).1
  refine ⟨by rw [front?, hStack, List.head?_cons], hNext, fun hCall => ?_⟩
  obtain ⟨next, hHead, hEq⟩ := List.mem_map.mp hCall
  obtain ⟨rfl, -⟩ := Call.mk.inj hEq
  exact hNext (Option.mem_toList.mp hHead)

end Roster

namespace Mission

open Roster

theorem alternates_launch (p : Plan) (b : Board) : (launch p b).mission.roster.Alternates := by
  rw [Alternates, stack_launch]
  exact Plan.nodup_ids.isChain

theorem alternates_after (p : Plan) (b : Board) (ops : List Op) :
    (after p b ops).roster.Alternates :=
  (alternates_launch p b).moves (after_moves p b ops)

/--
However a mission has got where it is, no task stands next to itself on its stack.
So a task that a request, a command or the drive of a finished front takes off the
stack does not uncover itself, and a finished front does not take over from itself.
-/
theorem neighbours_differ (p : Plan) (b : Board) (ops : List Op) :
    let m := after p b ops
    m.roster.stack.IsChain (· ≠ ·) ∧
    (∀ req id, ⟨id, .close⟩ ∈ (m.perform req).report.calls →
      m.roster.front? = some id ∧ (m.perform req).mission.roster.front? ≠ some id) ∧
    (∀ id, ⟨id, .close⟩ ∈ m.processCommand.report.calls →
      m.roster.front? = some id ∧ m.processCommand.mission.roster.front? ≠ some id) ∧
    ∀ dt id before after,
      let n := (m.untilFront dt).mission
      (n.driveFront dt).report.calls = before ++ ⟨id, .close⟩ :: after →
        n.roster.front? = some id ∧ (n.driveFront dt).mission.roster.front? ≠ some id ∧
          ⟨id, .activate⟩ ∉ after := by
  intro m
  have hStack : m.roster.Alternates := alternates_after p b ops
  have hSound : m.roster.Sound := sound_after p b ops
  refine ⟨hStack, fun req id => ?_, fun id => ?_, fun dt id before after => ?_⟩
  · exact hStack.turn (m.perform_turn req)
  · exact hStack.turn m.processCommand_turn
  · exact (hStack.moves (m.untilFront_moves dt)).drive (m.untilFallBack_drive dt hSound)

/-- The same task may well stand on the stack twice, with another one in between. -/
example :
    let p : Plan := {
      sequence := [{ name := "route" }]
      standby := [{ name := "idle" }, { name := "land" }] }
    (after p {} [.request (.order .idle), .request (.order (.land none)),
      .request (.order .idle), .request (.order .idle)]).roster.stack = [1, 2, 1, 0] := by
  decide +kernel

end Mission

end Sortie
