import Sortie.Proofs.Roster.Moves

/-!
# Turns and drives

A command or the fallback makes one turn, which pushes or pops at most one task.
The front is driven in one of four ways. All guards are part of the cases, so
that no later proof has to look inside a stage of a tick again.
-/

namespace Sortie

namespace Task

variable (x : Task) (dt : Float32) (commanded : Option Float32)

def rouse (x : Task) : Task := if x.phase = .inactive then x.activate else x

def drive (dt : Float32) (commanded : Option Float32) (x : Task) : Task :=
  x.rouse.update dt commanded

def driveCalls (id : TaskId) (x : Task) : List Call :=
  (if x.phase = .inactive then [⟨id, .activate⟩] else []) ++ [⟨id, .update⟩, ⟨id, .isComplete⟩]

theorem isComplete_iff {x : Task} : x.isComplete ↔ x.phase = .complete :=
  decide_eq_true_iff

@[simp] theorem profile_rouse : x.rouse.profile = x.profile := by
  unfold rouse; split <;> rfl

@[simp] theorem profile_drive : (x.drive dt commanded).profile = x.profile := by
  rw [drive, profile_update, profile_rouse]

@[simp] theorem name_drive : (x.drive dt commanded).name = x.name :=
  congrArg Profile.name (x.profile_drive dt commanded)

theorem phase_drive : (x.drive dt commanded).phase ≠ .inactive := by
  rw [drive, update]
  split
  · dsimp only
    split <;> simp
  · unfold rouse
    split <;> simp_all

end Task

namespace Roster

variable {r s : Roster} {ps : List TaskId} {cs : List Call} {id : TaskId} {x : Task}

theorem Akin.of_drive_pop (id : TaskId) (dt : Float32) (commanded : Option Float32) :
    r.Akin (r.modify id (Task.drive dt commanded)).pop :=
  (Akin.of_modify fun x => x.profile_drive dt commanded).trans .of_pop

/-- What one request does to a roster: at most one task is pushed or popped. -/
inductive Turn (r : Roster) : List TaskId → List Call → Roster → Prop where
  | keep : Turn r [] [] r
  | push {t : Target} {id : TaskId} (h : r.seek t = .standby id) :
      Turn r [id] [⟨id, .activate⟩] (r.raise id)
  | pop {id : TaskId} {rest : List TaskId} (h : r.stack = id :: rest) :
      Turn r [] [⟨id, .close⟩] r.pop

theorem Turn.moves (h : Turn r ps cs s) : Moves r ps cs s := by
  cases h with
  | keep => exact .nil r
  | push h => exact .single (.push h)
  | pop h => exact .single (.pop h)

theorem Turn.calls_cases (h : r.Turn ps cs s) :
    cs = [] ∧ s = r ∨
    (∃ id ∈ r.standby, cs = [⟨id, .activate⟩] ∧ s = r.raise id) ∨
    ∃ id rest, r.stack = id :: rest ∧ cs = [⟨id, .close⟩] ∧ s = r.pop := by
  cases h with
  | keep => exact .inl ⟨rfl, rfl⟩
  | push h => exact .inr (.inl ⟨_, mem_standby_of_seek h, rfl, rfl⟩)
  | pop hStack => exact .inr (.inr ⟨_, _, hStack, rfl, rfl⟩)

theorem Turn.length_le (h : r.Turn ps cs s) : s.stack.length ≤ r.stack.length + 1 := by
  cases h with
  | keep => omega
  | push => simp
  | pop =>
    rw [stack_pop, List.length_tail]
    omega

theorem Turn.pushes_eq_nil (h : r.Turn ps cs s) (hLength : s.stack.length ≤ r.stack.length) :
    ps = [] := by
  cases h with
  | keep | pop => rfl
  | push =>
    rw [stack_raise, List.length_cons] at hLength
    omega

theorem Turn.exists_pop (h : r.Turn ps cs s) (hLength : s.stack.length < r.stack.length) :
    ∃ id rest, r.stack = id :: rest ∧ cs = [⟨id, .close⟩] ∧ s = r.pop := by
  cases h with
  | keep => omega
  | push =>
    rw [stack_raise, List.length_cons] at hLength
    omega
  | pop hStack => exact ⟨_, _, hStack, rfl, rfl⟩

/-- How the front is driven: not at all, on and on, or to its end with or without a successor. -/
inductive Drive (dt : Float32) (commanded : Option Float32) (r : Roster) :
    Report → Roster → Prop where
  | absent (hStack : r.stack = []) : Drive dt commanded r ∅ r
  | goesOn {id : TaskId} {rest : List TaskId} {x : Task} (hStack : r.stack = id :: rest)
      (hTask : r.task? id = some x) (hPhase : (x.drive dt commanded).phase ≠ .complete) :
      Drive dt commanded r ⟨x.driveCalls id, []⟩ (r.modify id (Task.drive dt commanded))
  | ends {id : TaskId} {x : Task} (hStack : r.stack = [id]) (hTask : r.task? id = some x)
      (hPhase : (x.drive dt commanded).phase = .complete) :
      Drive dt commanded r ⟨x.driveCalls id ++ [⟨id, .close⟩], [.finished x.name]⟩
        (r.modify id (Task.drive dt commanded)).pop
  | handsOver {id next : TaskId} {rest : List TaskId} {x y : Task}
      (hStack : r.stack = id :: next :: rest) (hTask : r.task? id = some x)
      (hPhase : (x.drive dt commanded).phase = .complete) (hNext : r.task? next = some y) :
      Drive dt commanded r
        ⟨x.driveCalls id ++ [⟨id, .close⟩, ⟨next, .activate⟩], [.finished x.name, .next y.name]⟩
        ((r.modify id (Task.drive dt commanded)).pop.modify next Task.activate)

theorem moves_driveCalls {rest : List TaskId} (hStack : r.stack = id :: rest)
    (hTask : r.task? id = some x) (dt : Float32) (commanded : Option Float32) :
    Moves r [] (x.driveCalls id) (r.modify id (Task.drive dt commanded)) := by
  have hUpdate : ∀ q : Roster, q.stack = id :: rest →
      Moves q [] [⟨id, .update⟩, ⟨id, .isComplete⟩] (q.modify id (Task.update dt commanded)) :=
    fun q hq => (Moves.single (.updateFront hq dt commanded)).trans (.single (.ask hq))
  have hDrive : r.modify id (Task.drive dt commanded) =
      (r.modify id Task.rouse).modify id (Task.update dt commanded) := by
    rw [modify_modify]
    rfl
  rw [hDrive, Task.driveCalls]
  by_cases hPhase : x.phase = .inactive
  · rw [if_pos hPhase, modify_congr (g := Task.activate) hTask (by rw [Task.rouse, if_pos hPhase])]
    exact (Moves.single (.activate hStack)).trans (hUpdate _ hStack)
  · rw [if_neg hPhase, modify_eq_self hTask (by rw [Task.rouse, if_neg hPhase])]
    exact hUpdate r hStack

section

variable {dt : Float32} {commanded : Option Float32} {report : Report}

theorem Drive.moves (h : Drive dt commanded r report s) : Moves r [] report.calls s := by
  cases h with
  | absent => exact .nil r
  | goesOn hStack hTask => exact moves_driveCalls hStack hTask dt commanded
  | ends hStack hTask =>
    exact (moves_driveCalls hStack hTask dt commanded).trans (.single (.pop hStack))
  | @handsOver id next rest x y hStack hTask =>
    have hClose : Moves (r.modify id (Task.drive dt commanded)) [] [⟨id, .close⟩] _ :=
      .single (.pop hStack)
    exact (moves_driveCalls hStack hTask dt commanded).trans
      (hClose.trans (.single (.activate (stack_pop_of_eq (r.modify id _) id hStack))))

theorem Drive.length_le (h : r.Drive dt commanded report s) : s.stack.length ≤ r.stack.length := by
  cases h <;> simp

theorem Drive.le_length (h : r.Drive dt commanded report s) :
    r.stack.length ≤ s.stack.length + 1 := by
  cases h with
  | absent | goesOn => simp
  | ends hStack => simp [hStack]
  | handsOver hStack => simp [hStack]

theorem Drive.of_nil (h : r.Drive dt commanded report s) (hStack : r.stack = []) :
    report = ∅ ∧ s = r := by
  cases h with
  | absent => exact ⟨rfl, rfl⟩
  | goesOn hStack' | ends hStack' | handsOver hStack' => simp [hStack] at hStack'

theorem Drive.of_cons {rest : List TaskId} (h : r.Drive dt commanded report s)
    (hStack : r.stack = id :: rest) (hTask : r.task? id = some x) :
    ((x.drive dt commanded).phase ≠ .complete → report = ⟨x.driveCalls id, []⟩ ∧
      s = r.modify id (Task.drive dt commanded)) ∧
    ((x.drive dt commanded).phase = .complete → s.stack = rest ∧
      report = ⟨x.driveCalls id ++ ⟨id, .close⟩ :: rest.head?.toList.map fun next => ⟨next, .activate⟩,
        .finished x.name :: (r.names rest.head?.toList).map .next⟩) := by
  have hSame : ∀ {j l y}, r.stack = j :: l → r.task? j = some y → id = j ∧ rest = l ∧ x = y := by
    intro j l y hStack' hTask'
    rw [hStack, List.cons.injEq] at hStack'
    obtain ⟨rfl, rfl⟩ := hStack'
    exact ⟨rfl, rfl, Option.some.inj (hTask.symm.trans hTask')⟩
  have hRest : (r.modify id (Task.drive dt commanded)).pop.stack = rest :=
    stack_pop_of_eq (r.modify id _) id hStack
  cases h with
  | absent hStack' => simp [hStack] at hStack'
  | goesOn hStack' hTask' hPhase =>
    obtain ⟨rfl, rfl, rfl⟩ := hSame hStack' hTask'
    exact ⟨fun _ => ⟨rfl, rfl⟩, fun hEnd => absurd hEnd hPhase⟩
  | ends hStack' hTask' hPhase =>
    obtain ⟨rfl, rfl, rfl⟩ := hSame hStack' hTask'
    exact ⟨fun hGoesOn => absurd hPhase hGoesOn, fun _ => ⟨hRest, rfl⟩⟩
  | handsOver hStack' hTask' hPhase hNext =>
    obtain ⟨rfl, rfl, rfl⟩ := hSame hStack' hTask'
    refine ⟨fun hGoesOn => absurd hPhase hGoesOn, fun _ => ⟨hRest, ?_⟩⟩
    simp [names, hNext]

theorem Drive.category (h : r.Drive dt commanded report s) :
    ∀ e ∈ report.events, e.category = .mission := by
  cases h <;> simp [Event.category]

theorem Drive.of_active {rest : List TaskId} (h : r.Drive dt commanded report s)
    (hStack : r.stack = id :: rest) (hTask : r.task? id = some x) (hPhase : x.phase = .active) :
    let y := x.update dt commanded
    (y.phase ≠ .complete → report.calls = [⟨id, .update⟩, ⟨id, .isComplete⟩] ∧
      s.stack = r.stack ∧ s.task? id = some y ∧ ∀ j ≠ id, s.task? j = r.task? j) ∧
    (y.phase = .complete → s.stack = rest ∧
      report.calls = [⟨id, .update⟩, ⟨id, .isComplete⟩, ⟨id, .close⟩] ++
        rest.head?.toList.map fun next => ⟨next, .activate⟩) := by
  have hDrive : x.drive dt commanded = x.update dt commanded := by
    rw [Task.drive, Task.rouse, if_neg (by simp [hPhase])]
  have hCalls : x.driveCalls id = [⟨id, .update⟩, ⟨id, .isComplete⟩] := by
    rw [Task.driveCalls, if_neg (by simp [hPhase]), List.nil_append]
  obtain ⟨hGoesOn, hEnds⟩ := h.of_cons hStack hTask
  rw [hDrive, hCalls] at hGoesOn hEnds
  constructor
  · intro hNotComplete
    obtain ⟨rfl, rfl⟩ := hGoesOn hNotComplete
    refine ⟨rfl, rfl, ?_, fun j hj => task?_modify_of_ne r id _ hj.symm⟩
    rw [task?_modify_self, hTask, Option.map_some, hDrive]
  · intro hComplete
    obtain ⟨hRest, rfl⟩ := hEnds hComplete
    exact ⟨hRest, rfl⟩

end

end Roster

end Sortie
