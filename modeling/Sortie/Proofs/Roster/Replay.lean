import Sortie.Proofs.Roster.Turns

/-!
# Replaying hooks

Whatever happens to the tasks in a tick happens through the hooks that it calls:
replayed in their order on the tasks before it, they give the tasks after it. So
the state in which a call finds its task is the one that the calls before it
lead to.
-/

namespace Sortie

section

variable (dt : Float32) (commanded : Option Float32)

def Call.effect (c : Call) (xs : List Task) : List Task :=
  match c.hook with
  | .activate => xs.modify c.id Task.activate
  | .update => xs.modify c.id (Task.update dt commanded)
  | .isComplete => xs
  | .close => xs.modify c.id Task.close

def replay (cs : List Call) (xs : List Task) : List Task :=
  cs.foldl (fun xs c => c.effect dt commanded xs) xs

def Timely (exempt : List TaskId) (cs : List Call) (xs : List Task) : Prop :=
  ∀ before id after, cs = before ++ ⟨id, .update⟩ :: after → id ∉ exempt →
    ∃ x, (replay dt commanded before xs)[id]? = some x ∧ x.phase = .active

end

def updatedBeyond (exempt : List TaskId) (cs : List Call) : List TaskId :=
  cs.filterMap fun c => if c.hook = .update ∧ c.id ∉ exempt then some c.id else none

variable {dt : Float32} {commanded : Option Float32} {exempt : List TaskId} {c : Call}
  {cs ds : List Call} {xs : List Task}

theorem updatedBeyond_append :
    updatedBeyond exempt (cs ++ ds) = updatedBeyond exempt cs ++ updatedBeyond exempt ds :=
  List.filterMap_append

theorem updatedBeyond_eq_nil (h : ∀ c ∈ cs, c.hook = .update → c.id ∈ exempt) :
    updatedBeyond exempt cs = [] := by
  rw [updatedBeyond, List.filterMap_eq_nil_iff]
  intro c hc
  exact if_neg fun hBoth => hBoth.2 (h c hc hBoth.1)

theorem replay_append :
    replay dt commanded (cs ++ ds) xs = replay dt commanded ds (replay dt commanded cs xs) :=
  List.foldl_append

theorem profile_effect (c : Call) (xs : List Task) (j : TaskId) :
    (c.effect dt commanded xs)[j]?.map Task.profile = xs[j]?.map Task.profile := by
  have hModify : ∀ f : Task → Task, (∀ x, (f x).profile = x.profile) →
      (xs.modify c.id f)[j]?.map Task.profile = xs[j]?.map Task.profile := by
    intro f hf
    rw [List.getElem?_modify]
    cases xs[j]? with
    | none => rfl
    | some x => split <;> simp [hf]
  obtain ⟨id, hook⟩ := c
  cases hook with
  | activate => exact hModify _ fun _ => rfl
  | update => exact hModify _ fun x => x.profile_update dt commanded
  | isComplete => rfl
  | close => exact hModify _ fun _ => rfl

/-- No hook changes what the plan fixes about a task. -/
theorem profile_replay (cs : List Call) (xs : List Task) (j : TaskId) :
    (replay dt commanded cs xs)[j]?.map Task.profile = xs[j]?.map Task.profile := by
  induction cs generalizing xs with
  | nil => rfl
  | cons c cs ih => exact (ih (c.effect dt commanded xs)).trans (profile_effect c xs j)

theorem timely_cons_iff :
    Timely dt commanded exempt (c :: cs) xs ↔
      (c.hook = .update → c.id ∉ exempt → ∃ x, xs[c.id]? = some x ∧ x.phase = .active) ∧
      Timely dt commanded exempt cs (c.effect dt commanded xs) := by
  constructor
  · intro h
    constructor
    · rintro hHook hExempt
      exact h [] c.id cs (by rw [← hHook]; rfl) hExempt
    · rintro before id after rfl hExempt
      exact h (c :: before) id after rfl hExempt
  · rintro ⟨hHead, hTail⟩ before id after hEq hExempt
    cases before with
    | nil =>
      obtain ⟨rfl, rfl⟩ := List.cons.inj hEq
      exact hHead rfl hExempt
    | cons d before =>
      obtain ⟨rfl, rfl⟩ := List.cons.inj hEq
      exact hTail before id after rfl hExempt

theorem timely_of_exempt (h : ∀ c ∈ cs, c.hook = .update → c.id ∈ exempt) :
    Timely dt commanded exempt cs xs := by
  rintro before id after rfl hExempt
  exact absurd (h ⟨id, .update⟩ (by simp) rfl) hExempt

theorem Timely.append (h : Timely dt commanded exempt cs xs)
    (h' : Timely dt commanded exempt ds (replay dt commanded cs xs)) :
    Timely dt commanded exempt (cs ++ ds) xs := by
  induction cs generalizing xs with
  | nil => exact h'
  | cons c cs ih =>
    rw [timely_cons_iff] at h
    rw [List.cons_append, timely_cons_iff]
    exact ⟨h.1, ih h.2 h'⟩

namespace Roster

variable {r s : Roster} {ps : List TaskId} {id : TaskId} {x : Task} {report : Report}

theorem Turn.tasks_eq (h : r.Turn ps cs s) (dt : Float32) (commanded : Option Float32) :
    s.tasks = replay dt commanded cs r.tasks := by
  cases h with
  | keep | push => rfl
  | pop hStack =>
    rw [pop_of_stack_eq r _ hStack]
    rfl

theorem Turn.hook_ne_update (h : r.Turn ps cs s) : ∀ c ∈ cs, c.hook ≠ .update := by
  cases h <;> simp

theorem replay_driveCalls (hTask : r.task? id = some x) (dt : Float32) (commanded : Option Float32) :
    replay dt commanded (x.driveCalls id) r.tasks = (r.modify id (Task.drive dt commanded)).tasks := by
  rw [Task.driveCalls]
  split
  · rename_i hPhase
    rw [modify_congr (g := Task.update dt commanded ∘ Task.activate) hTask
      (by rw [Task.drive, Task.rouse, if_pos hPhase]; rfl), ← modify_modify]
    rfl
  · rename_i hPhase
    rw [modify_congr (g := Task.update dt commanded) hTask
      (by rw [Task.drive, Task.rouse, if_neg hPhase])]
    rfl

theorem timely_driveCalls (hTask : r.task? id = some x) (hPhase : x.phase ≠ .complete) :
    Timely dt commanded exempt (x.driveCalls id) r.tasks := by
  have hUpdate : ∀ {q : Roster} {y : Task}, q.task? id = some y → y.phase = .active →
      Timely dt commanded exempt [⟨id, .update⟩, ⟨id, .isComplete⟩] q.tasks := by
    intro q y hy hActive
    rw [timely_cons_iff]
    exact ⟨fun _ _ => ⟨y, hy, hActive⟩, timely_of_exempt (by simp)⟩
  rw [Task.driveCalls]
  split
  · rw [List.singleton_append, timely_cons_iff]
    refine ⟨by simp, hUpdate (q := r.modify id Task.activate) (y := x.activate) ?_ rfl⟩
    rw [task?_modify_self, hTask, Option.map_some]
  · rename_i hInactive
    refine hUpdate hTask ?_
    cases hCase : x.phase <;> simp_all

theorem Drive.tasks_eq (h : r.Drive dt commanded report s) :
    s.tasks = replay dt commanded report.calls r.tasks := by
  cases h with
  | absent => rfl
  | goesOn _ hTask => exact (replay_driveCalls hTask dt commanded).symm
  | @ends id x hStack hTask =>
    rw [replay_append, replay_driveCalls hTask, pop_of_stack_eq (r.modify id _) id hStack]
    rfl
  | @handsOver id next rest x y hStack hTask =>
    rw [replay_append, replay_driveCalls hTask, pop_of_stack_eq (r.modify id _) id hStack]
    rfl

theorem Drive.timely (h : r.Drive dt commanded report s)
    (hPhase : ∀ id x, r.front? = some id → r.task? id = some x → x.phase ≠ .complete) :
    Timely dt commanded exempt report.calls r.tasks := by
  have hDriven : ∀ {id rest x}, r.stack = id :: rest → r.task? id = some x →
      Timely dt commanded exempt (x.driveCalls id) r.tasks := by
    intro id rest x hStack hTask
    exact timely_driveCalls hTask (hPhase id x (by rw [front?, hStack, List.head?_cons]) hTask)
  cases h with
  | absent => exact timely_of_exempt (by simp)
  | goesOn hStack hTask => exact hDriven hStack hTask
  | ends hStack hTask => exact (hDriven hStack hTask).append (timely_of_exempt (by simp))
  | handsOver hStack hTask => exact (hDriven hStack hTask).append (timely_of_exempt (by simp))

theorem updatedBeyond_driveCalls (hId : id ∉ exempt) (x : Task) :
    updatedBeyond exempt (x.driveCalls id) = [id] := by
  rw [Task.driveCalls]
  split <;> simp [updatedBeyond, hId]

theorem Drive.updatedBeyond {rest : List TaskId} (h : r.Drive dt commanded report s)
    (hStack : r.stack = id :: rest) (hId : id ∉ exempt) :
    updatedBeyond exempt report.calls = [id] := by
  cases h with
  | absent hStack' => simp [hStack] at hStack'
  | goesOn hStack' | ends hStack' | handsOver hStack' =>
    rw [hStack, List.cons.injEq] at hStack'
    obtain ⟨rfl, -⟩ := hStack'
    simp [updatedBeyond_append, updatedBeyond_driveCalls hId, updatedBeyond_eq_nil]

end Roster

end Sortie
