import Mathlib.Data.List.Induction
import Sortie.Task.Drill

/-!
# What a task makes of its calls

A stint is what comes after an activation. A task adds up the time of the updates that
find it active, and is complete from the one whose sum reaches the limit in force at that
update. The calls may come in any order; all that counts is what has come since the last
activation.
-/

namespace Sortie

/--
A preflight takes the commanded duration as its limit, or else the configured one. The
other timed kinds take the configured one, and all other kinds have no limit.
-/
def Kind.Limits (k : Kind) (configured commanded : Option Float32) (limit : Float32) : Prop :=
  if k = .preflight then commanded = some limit ∨ commanded = none ∧ configured = some limit
  else k.isTimed ∧ configured = some limit

namespace Profile

variable {p : Profile} {commanded : Option Float32} {elapsed limit : Float32}

theorem expired_iff :
    p.expired commanded elapsed ↔ ∃ limit, p.limit commanded = some limit ∧ limit ≤ elapsed := by
  rw [expired]
  cases p.limit commanded <;> simp

theorem limit_eq_some_iff :
    p.limit commanded = some limit ↔ p.kind.Limits p.duration commanded limit := by
  rw [Kind.Limits, Profile.limit.eq_def]
  split
  · rename_i hKind
    rw [if_pos hKind]
    cases commanded <;> simp
  · rename_i hKind
    rw [if_neg hKind]
    cases p.kind.isTimed <;> simp

theorem expired_iff_limits :
    p.expired commanded elapsed ↔
      ∃ limit, p.kind.Limits p.duration commanded limit ∧ limit ≤ elapsed := by
  simp only [expired_iff, limit_eq_some_iff]

end Profile

namespace Drill

namespace Step

def time? : Step → Option Float32
  | .update dt => some dt
  | _ => none

def duration? : Step → Option (Option Float32)
  | .preflight duration => some duration
  | _ => none

end Step

def times (steps : List Step) : List Float32 := steps.filterMap Step.time?

/-- The preflight duration that was set last, and the given one when none was set. -/
def commanded (duration : Option Float32) (steps : List Step) : Option Float32 :=
  ((steps.filterMap Step.duration?).getLast?).getD duration

def credit (d : Drill) (s : Step) : Option Float32 :=
  if d.task.phase = .active then s.time? else none

def credits (d : Drill) : List Step → List Float32
  | [] => []
  | s :: rest => (d.credit s).toList ++ (d.step s).credits rest

def total (dts : List Float32) : Float32 := dts.foldl (· + ·) 0

/--
Some update brings the sum of what `counted` makes of the steps so far to the limit that
is in force at this very update.
-/
def RunsOut (kind : Kind) (configured duration : Option Float32)
    (counted : List Step → List Float32) (steps : List Step) : Prop :=
  ∃ xs dt ys limit, steps = xs ++ .update dt :: ys ∧
    kind.Limits configured (commanded duration xs) limit ∧
    limit ≤ total (counted (xs ++ [.update dt]))

variable {kind : Kind} {configured duration : Option Float32} {counted : List Step → List Float32}
  {d : Drill} {s : Step} {xs ys : List Step} {dt : Float32}

theorem run_append : d.run (xs ++ ys) = (d.run xs).run ys :=
  List.foldl_append

theorem run_concat : d.run (xs ++ [s]) = (d.run xs).step s :=
  run_append

theorem profile_step (d : Drill) (s : Step) : (d.step s).task.profile = d.task.profile := by
  cases s with
  | update dt => exact d.task.profile_update dt d.board.preflight
  | activate | close | preflight => rfl

theorem profile_run (d : Drill) (steps : List Step) : (d.run steps).task.profile = d.task.profile := by
  induction steps generalizing d with
  | nil => rfl
  | cons s steps ih => exact (ih (d.step s)).trans (d.profile_step s)

theorem total_concat (dts : List Float32) (dt : Float32) : total (dts ++ [dt]) = total dts + dt := by
  rw [total, List.foldl_append]
  rfl

theorem credits_concat (d : Drill) (xs : List Step) (s : Step) :
    d.credits (xs ++ [s]) = d.credits xs ++ ((d.run xs).credit s).toList := by
  induction xs generalizing d with
  | nil => exact List.append_nil _
  | cons x xs ih =>
    rw [List.cons_append, credits, credits, ih, List.append_assoc]
    rfl

theorem credits_concat_of_none (h : (d.run xs).credit s = none) :
    d.credits (xs ++ [s]) = d.credits xs := by
  rw [credits_concat, h, Option.toList_none, List.append_nil]

theorem times_concat (xs : List Step) (s : Step) : times (xs ++ [s]) = times xs ++ s.time?.toList := by
  rw [times, times, List.filterMap_append]
  cases h : s.time? <;> simp [h]

theorem preflight_run (d : Drill) (steps : List Step) :
    (d.run steps).board.preflight = commanded d.board.preflight steps := by
  induction steps using List.reverseRecOn with
  | nil => rfl
  | append_singleton xs s ih =>
    rw [commanded, List.filterMap_append, run_concat]
    cases s with
    | activate | update | close => simpa [commanded, step, Step.duration?] using ih
    | preflight duration => simp [step, Step.duration?]

/-- An update either comes before the last step or is that step. -/
theorem runsOut_concat_iff :
    RunsOut kind configured duration counted (xs ++ [s]) ↔
      RunsOut kind configured duration counted xs ∨
      ∃ dt limit, s = .update dt ∧ kind.Limits configured (commanded duration xs) limit ∧
        limit ≤ total (counted (xs ++ [s])) := by
  constructor
  · rintro ⟨before, dt, after, limit, hSteps, hLimit, hReached⟩
    rcases List.eq_nil_or_concat after with rfl | ⟨rest, last, rfl⟩
    · obtain ⟨rfl, hLast⟩ := List.append_inj' hSteps rfl
      cases hLast
      exact .inr ⟨dt, limit, rfl, hLimit, hReached⟩
    · rw [List.concat_eq_append, ← List.cons_append, ← List.append_assoc] at hSteps
      obtain ⟨rfl, -⟩ := List.append_inj' hSteps rfl
      exact .inl ⟨before, dt, rest, limit, rfl, hLimit, hReached⟩
  · rintro (⟨before, dt, after, limit, rfl, hLimit, hReached⟩ | ⟨dt, limit, rfl, hLimit, hReached⟩)
    · exact ⟨before, dt, after ++ [s], limit, by simp, hLimit, hReached⟩
    · exact ⟨xs, dt, [], limit, rfl, hLimit, hReached⟩

/-! ## Steps that leave the task alone -/

theorem task_run_of_idle
    (h : ∀ s ∈ xs, ∀ c : Drill, c.task = d.task → (c.step s).task = d.task) :
    (d.run xs).task = d.task := by
  induction xs using List.reverseRecOn with
  | nil => rfl
  | append_singleton xs s ih =>
    rw [run_concat]
    exact h s (by simp) _ (ih fun x hx => h x (List.mem_append_left _ hx))

theorem step_update_of_ne (hPhase : d.task.phase ≠ .active) (dt : Float32) :
    d.step (.update dt) = d := by
  rw [step, Task.update_of_ne _ _ _ hPhase]

theorem task_run_of_inactive (hPhase : d.task.phase = .inactive) (h : .activate ∉ xs) :
    (d.run xs).task = d.task := by
  refine task_run_of_idle fun s hs c hTask => ?_
  have hInactive : c.task.phase = .inactive := hTask ▸ hPhase
  cases s with
  | activate => exact absurd hs h
  | update dt => rw [step_update_of_ne (by simp [hInactive]), hTask]
  | close =>
    refine Eq.trans ?_ hTask
    rw [step, Task.close, ← hInactive]
  | preflight => exact hTask

theorem task_run_of_complete (hPhase : d.task.phase = .complete)
    (h : ∀ s ∈ xs, s ≠ .activate ∧ s ≠ .close) : (d.run xs).task = d.task := by
  refine task_run_of_idle fun s hs c hTask => ?_
  have hComplete : c.task.phase = .complete := hTask ▸ hPhase
  cases s with
  | activate => exact absurd rfl (h _ hs).1
  | update dt => rw [step_update_of_ne (by simp [hComplete]), hTask]
  | close => exact absurd rfl (h _ hs).2
  | preflight => exact hTask

/-! ## One stint -/

def Expires (d : Drill) (steps : List Step) : Prop :=
  RunsOut d.task.profile.kind d.task.profile.duration d.board.preflight d.credits steps

structure Accounts (d : Drill) (steps : List Step) : Prop where
  elapsed : (d.run steps).task.elapsed = total (d.credits steps)
  /-- As long as the task is active it has missed no update. -/
  credits : (d.run steps).task.phase = .active → d.credits steps = times steps
  inactive : (d.run steps).task.phase = .inactive ↔ .close ∈ steps
  complete : (d.run steps).task.phase = .complete ↔ .close ∉ steps ∧ d.Expires steps

namespace Accounts

theorem nil (hPhase : d.task.phase = .active) (hElapsed : d.task.elapsed = 0) : d.Accounts [] where
  elapsed := hElapsed
  credits _ := rfl
  inactive := by simp [run, hPhase]
  complete := by simp [run, hPhase, Expires, RunsOut]

theorem active (h : d.Accounts xs) :
    (d.run xs).task.phase = .active ↔ .close ∉ xs ∧ ¬ d.Expires xs := by
  rw [← h.inactive]
  have hComplete := h.complete
  rw [← h.inactive] at hComplete
  cases hCase : (d.run xs).task.phase <;> simp_all

theorem close_or_expires (h : d.Accounts xs) (hPhase : (d.run xs).task.phase ≠ .active) :
    .close ∈ xs ∨ d.Expires xs := by
  cases hCase : (d.run xs).task.phase with
  | inactive => exact .inl (h.inactive.mp hCase)
  | active => exact absurd hCase hPhase
  | complete => exact .inr (h.complete.mp hCase).2

/-- An update that finds the task active is credited, and the sum is compared with the limit. -/
theorem update_active (h : d.Accounts xs) (hPhase : (d.run xs).task.phase = .active)
    (dt : Float32) : d.Accounts (xs ++ [.update dt]) := by
  obtain ⟨hClose, hOut⟩ := h.active.mp hPhase
  have hCredits : d.credits (xs ++ [.update dt]) = d.credits xs ++ [dt] := by
    rw [credits_concat, credit, if_pos hPhase]
    rfl
  have hTotal : total (d.credits (xs ++ [.update dt])) = (d.run xs).task.elapsed + dt := by
    rw [hCredits, total_concat, h.elapsed]
  have hStep : (d.run (xs ++ [.update dt])).task = { (d.run xs).task with
      elapsed := (d.run xs).task.elapsed + dt
      phase := if (d.run xs).task.profile.expired (d.run xs).board.preflight
        ((d.run xs).task.elapsed + dt) then .complete else .active } := by
    rw [run_concat, step, Task.update, if_pos hPhase]
  rw [profile_run, preflight_run] at hStep
  refine ⟨by rw [hStep, hTotal], fun _ => ?_, ?_, ?_⟩
  · rw [hCredits, h.credits hPhase, times_concat]
    rfl
  · rw [hStep]
    split <;> simp [hClose]
  · rw [Expires, runsOut_concat_iff, ← Expires, hTotal, hStep]
    simp [hClose, hOut, Profile.expired_iff_limits]

/-- Any other update changes nothing: either a closing came before it, or the limit was reached. -/
theorem update_idle (h : d.Accounts xs) (hPhase : (d.run xs).task.phase ≠ .active) (dt : Float32) :
    d.Accounts (xs ++ [.update dt]) := by
  have hRun : d.run (xs ++ [.update dt]) = d.run xs := by
    rw [run_concat, step_update_of_ne hPhase]
  refine ⟨?_, fun hActive => ?_, ?_, ?_⟩
  · rw [hRun, credits_concat_of_none (if_neg hPhase), h.elapsed]
  · exact absurd (hRun ▸ hActive) hPhase
  · rw [hRun, h.inactive]
    simp
  · rw [hRun, h.complete, Expires, Expires, runsOut_concat_iff, ← Expires]
    rcases h.close_or_expires hPhase with hClose | hOut
    · simp [hClose]
    · simp [hOut]

theorem close (h : d.Accounts xs) : d.Accounts (xs ++ [.close]) := by
  refine ⟨?_, fun hActive => ?_, ?_, ?_⟩
  · rw [credits_concat_of_none (by simp [credit, Step.time?]), ← h.elapsed, run_concat]
    rfl
  · simp [run_concat, step] at hActive
  · simp [run_concat, step]
  · simp [run_concat, step]

theorem preflight (h : d.Accounts xs) (duration : Option Float32) :
    d.Accounts (xs ++ [.preflight duration]) := by
  have hTask : (d.run (xs ++ [.preflight duration])).task = (d.run xs).task := by
    rw [run_concat]
    rfl
  have hCredits : d.credits (xs ++ [.preflight duration]) = d.credits xs :=
    credits_concat_of_none (by simp [credit, Step.time?])
  refine ⟨?_, fun hActive => ?_, ?_, ?_⟩
  · rw [hTask, hCredits, h.elapsed]
  · rw [hTask] at hActive
    rw [hCredits, h.credits hActive, times_concat]
    exact (List.append_nil _).symm
  · rw [hTask, h.inactive]
    simp
  · rw [hTask, h.complete, Expires, Expires, runsOut_concat_iff]
    simp

theorem concat (h : d.Accounts xs) (hStep : s ≠ .activate) : d.Accounts (xs ++ [s]) := by
  cases s with
  | activate => exact absurd rfl hStep
  | update dt =>
    by_cases hPhase : (d.run xs).task.phase = .active
    · exact h.update_active hPhase dt
    · exact h.update_idle hPhase dt
  | close => exact h.close
  | preflight duration => exact h.preflight duration

end Accounts

section

variable (hPhase : d.task.phase = .active) (hElapsed : d.task.elapsed = 0) (h : .activate ∉ xs)

include hPhase hElapsed h

theorem accounts : d.Accounts xs := by
  induction xs using List.reverseRecOn with
  | nil => exact .nil hPhase hElapsed
  | append_singleton xs s ih =>
    rw [List.mem_append, List.mem_singleton, not_or] at h
    exact (ih h.1).concat (Ne.symm h.2)

/-- Up to the update that runs a task out, all updates are credited. -/
theorem expires_iff_times (hClose : .close ∉ xs) :
    d.Expires xs ↔
      RunsOut d.task.profile.kind d.task.profile.duration d.board.preflight times xs := by
  induction xs using List.reverseRecOn with
  | nil => simp [Expires, RunsOut]
  | append_singleton xs s ih =>
    rw [List.mem_append, List.mem_singleton, not_or] at h hClose
    have hAccounts := accounts hPhase hElapsed h.1
    have hBefore := ih h.1 hClose.1
    rw [Expires, runsOut_concat_iff, runsOut_concat_iff, ← hBefore, ← Expires]
    by_cases hActive : (d.run xs).task.phase = .active
    · have hCredits : d.credits (xs ++ [s]) = times (xs ++ [s]) := by
        rw [credits_concat, times_concat, hAccounts.credits hActive, credit, if_pos hActive]
      rw [hCredits]
    · have hOut := (hAccounts.close_or_expires hActive).resolve_left hClose.1
      simp [hOut]

end

/--
Whatever calls a task has received, and in whatever order: before any activation it is
inactive and has spent no time. Afterwards it has spent the time of the updates that have
found it active since the last activation; it is inactive if it has been closed since,
else complete if an update has run it out, and else active. Whether it has run out can
also be told by counting all updates. An update that does not find the task active
changes nothing, and only an activation or a closing ends its completion.
-/
theorem phase_and_elapsed (kind : Kind) (e : Entry) (b : Board) (steps : List Step) :
    let d : Drill := ⟨.ofEntry kind e, b⟩
    let x := (d.run steps).task
    (.activate ∉ steps → x.phase = .inactive ∧ x.elapsed = 0) ∧
    (∀ before after, steps = before ++ .activate :: after → .activate ∉ after →
      let fresh := d.run (before ++ [.activate])
      let out := RunsOut kind (e.params.number32? "duration_sec") (commanded b.preflight before)
      x.elapsed = total (fresh.credits after) ∧
      (x.phase = .inactive ↔ .close ∈ after) ∧
      (x.phase = .complete ↔ .close ∉ after ∧ out fresh.credits after) ∧
      (x.phase = .active ↔ .close ∉ after ∧ ¬ out fresh.credits after) ∧
      (.close ∉ after → (out fresh.credits after ↔ out times after))) ∧
    (x.isComplete = true ↔ x.phase = .complete) ∧
    (x.phase ≠ .active → ∀ dt, d.run (steps ++ [.update dt]) = d.run steps) ∧
    (x.phase = .complete → ∀ more, (∀ s ∈ more, s ≠ .activate ∧ s ≠ .close) →
      (d.run (steps ++ more)).task = x) := by
  intro d x
  refine ⟨fun hNever => ?_, ?_, decide_eq_true_iff, fun hPhase dt => ?_, fun hPhase more hMore => ?_⟩
  · have hTask : x = d.task := task_run_of_inactive rfl hNever
    rw [hTask]
    exact ⟨rfl, rfl⟩
  · rintro before after rfl hLast fresh out
    have hFresh : fresh = (d.run before).step .activate := run_concat
    have hTask : fresh.task = (d.run before).task.activate := by
      rw [hFresh]
      rfl
    have hProfile : fresh.task.profile = .ofEntry kind e := d.profile_run _
    have hDuration : fresh.board.preflight = commanded b.preflight before := by
      rw [hFresh]
      exact d.preflight_run before
    have hRun : x = (fresh.run after).task := by
      rw [show x = (d.run (before ++ .activate :: after)).task from rfl, List.append_cons, run_append]
    have hPhase : fresh.task.phase = .active := by rw [hTask, Task.phase_activate]
    have hElapsed : fresh.task.elapsed = 0 := by rw [hTask, Task.elapsed_activate]
    have hAccounts := accounts hPhase hElapsed hLast
    have hOut : ∀ counted, RunsOut fresh.task.profile.kind fresh.task.profile.duration
        fresh.board.preflight counted after = out counted after := by
      intro counted
      rw [hProfile, hDuration]
      rfl
    have hExpires : fresh.Expires after = out fresh.credits after := hOut fresh.credits
    rw [hRun, ← hExpires, ← hOut times]
    exact ⟨hAccounts.elapsed, hAccounts.inactive, hAccounts.complete, hAccounts.active,
      expires_iff_times hPhase hElapsed hLast⟩
  · rw [run_concat, step_update_of_ne hPhase]
  · rw [run_append]
    exact task_run_of_complete hPhase hMore

/-- A limit that is set too late still counts at the next update; after that no longer one does. -/
example : ((⟨.ofEntry .preflight { name := "preflight" }, {}⟩ : Drill).run
    [.activate, .update 2, .preflight (some 1), .update 1, .preflight (some 9), .update 1]).task =
      { profile := .ofEntry .preflight { name := "preflight" }, phase := .complete, elapsed := 3 } := by
  decide +kernel

end Drill

end Sortie
