import Mathlib.Data.List.Count
import Mathlib.Data.List.Nodup
import Sortie.Proofs.Mission.Reports

/-!
# The rounds of the global tasks

A launch activates each global task, and from then on each tick updates each of
them once, in the order of the plan. Nothing else ever touches them, so a global
task that is complete stays as it is.
-/

namespace Sortie

def round (hook : Hook) (ids : List TaskId) : List Call := ids.map fun id => ⟨id, hook⟩

def callsOf (ids : List TaskId) (cs : List Call) : List Call := cs.filter (·.id ∈ ids)

section

variable {ids : List TaskId} {cs ds : List Call} {id : TaskId}

theorem callsOf_append : callsOf ids (cs ++ ds) = callsOf ids cs ++ callsOf ids ds :=
  List.filter_append cs ds

theorem callsOf_eq_nil (h : ∀ c ∈ cs, c.id ∉ ids) : callsOf ids cs = [] := by
  rw [callsOf, List.filter_eq_nil_iff]
  intro c hc
  simpa using h c hc

theorem callsOf_round (hook : Hook) : callsOf ids (round hook ids) = round hook ids := by
  rw [callsOf, List.filter_eq_self]
  intro c hc
  obtain ⟨id, hId, rfl⟩ := List.mem_map.mp hc
  exact decide_eq_true hId

theorem count_callsOf (hId : id ∈ ids) (hook : Hook) (cs : List Call) :
    (callsOf ids cs).count ⟨id, hook⟩ = cs.count ⟨id, hook⟩ :=
  List.count_filter (decide_eq_true hId)

theorem count_round (hNodup : ids.Nodup) (hId : id ∈ ids) (hook hook' : Hook) :
    (round hook' ids).count ⟨id, hook⟩ = if hook = hook' then 1 else 0 := by
  split
  · rename_i hEq
    subst hEq
    have hInj : Function.Injective fun id => (⟨id, hook⟩ : Call) := fun _ _ h => congrArg Call.id h
    calc (round hook ids).count ⟨id, hook⟩
      _ = ids.count id := List.count_map_of_injective ids _ hInj id
      _ = 1 := List.count_eq_one_of_mem hNodup hId
  · rename_i hNe
    rw [List.count_eq_zero]
    intro hMem
    obtain ⟨j, -, hEq⟩ := List.mem_map.mp hMem
    exact hNe (congrArg Call.hook hEq).symm

end

namespace Task

variable {x y z : Task}

structure Endures (x y : Task) : Prop where
  started : x.phase ≠ .inactive → y.phase ≠ .inactive
  frozen : x.phase = .complete → y = x

theorem Endures.refl (x : Task) : x.Endures x := ⟨id, fun _ => rfl⟩

theorem Endures.trans (h : x.Endures y) (h' : y.Endures z) : x.Endures z where
  started := h'.started ∘ h.started
  frozen hPhase := by
    obtain rfl := h.frozen hPhase
    exact h'.frozen hPhase

theorem endures_update (x : Task) (dt : Float32) (commanded : Option Float32) :
    x.Endures (x.update dt commanded) where
  started hPhase := by
    rw [update]
    split
    · dsimp only
      split <;> simp
    · exact hPhase
  frozen hPhase := update_of_ne x dt commanded (by simp [hPhase])

theorem id_of_mem_driveCalls {id : TaskId} {c : Call} (h : c ∈ x.driveCalls id) : c.id = id := by
  rw [driveCalls] at h
  split at h
  · obtain rfl | rfl | rfl : c = ⟨id, .activate⟩ ∨ c = ⟨id, .update⟩ ∨ c = ⟨id, .isComplete⟩ := by
      simpa using h
    all_goals rfl
  · obtain rfl | rfl : c = ⟨id, .update⟩ ∨ c = ⟨id, .isComplete⟩ := by simpa using h
    all_goals rfl

end Task

namespace Roster

variable {r s : Roster} {ps : List TaskId} {cs : List Call} {id : TaskId} {x : Task}
  {dt : Float32} {commanded : Option Float32} {report : Report}

theorem Turn.id_not_global (h : r.Turn ps cs s) (hSound : r.Sound) : ∀ c ∈ cs, c.id ∉ r.globals := by
  cases h with
  | keep => simp
  | push hSeek => simpa using hSound.not_global _ (.inl (mem_standby_of_seek hSeek))
  | pop hStack => simpa using hSound.not_global _ (.inr (by simp [hStack]))

theorem Drive.id_mem_stack (h : r.Drive dt commanded report s) : ∀ c ∈ report.calls, c.id ∈ r.stack := by
  have hDriven : ∀ {x : Task} {id : TaskId}, id ∈ r.stack → ∀ c ∈ x.driveCalls id, c.id ∈ r.stack :=
    fun hId c hc => Task.id_of_mem_driveCalls hc ▸ hId
  cases h with
  | absent => simp
  | goesOn hStack => exact hDriven (by simp [hStack])
  | ends hStack | handsOver hStack =>
    rw [List.forall_mem_append]
    exact ⟨hDriven (by simp [hStack]), by simp [hStack]⟩

theorem Drive.id_not_global (h : r.Drive dt commanded report s) (hSound : r.Sound) :
    ∀ c ∈ report.calls, c.id ∉ r.globals :=
  fun c hc => hSound.not_global c.id (.inr (h.id_mem_stack c hc))

/-- Of all moves only an update of the task itself changes a global task. -/
theorem Move.endures (h : r.Move ps cs s) (hSound : r.Sound) (hId : id ∈ r.globals)
    (hTask : r.task? id = some x) : ∃ y, s.task? id = some y ∧ x.Endures y := by
  -- no other move is about a global task: it comes from the catalog or from the stack
  have hStack : ∀ {j rest}, r.stack = j :: rest → j ≠ id := by
    rintro j rest hTop rfl
    exact hSound.not_global j (.inr (by simp [hTop])) hId
  cases h with
  | @push t j hSeek =>
    have hNe : j ≠ id := by
      rintro rfl
      exact hSound.not_global j (.inl (mem_standby_of_seek hSeek)) hId
    exact ⟨x, by rw [task?_raise_of_ne r j hNe, hTask], .refl x⟩
  | pop hTop => exact ⟨x, by rw [task?_pop_of_ne r _ hTop (hStack hTop), hTask], .refl x⟩
  | activate hTop => exact ⟨x, by rw [task?_modify_of_ne r _ _ (hStack hTop), hTask], .refl x⟩
  | ask => exact ⟨x, hTask, .refl x⟩
  | updateFront hTop => exact ⟨x, by rw [task?_modify_of_ne r _ _ (hStack hTop), hTask], .refl x⟩
  | @updateGlobal j hGlobal dt commanded =>
    rw [task?_modify]
    split
    · rw [hTask]
      exact ⟨x.update dt commanded, rfl, x.endures_update dt commanded⟩
    · exact ⟨x, hTask, .refl x⟩

theorem Moves.endures (h : r.Moves ps cs s) (hSound : r.Sound) (hId : id ∈ r.globals)
    (hTask : r.task? id = some x) : ∃ y, s.task? id = some y ∧ x.Endures y := by
  induction h generalizing x with
  | nil => exact ⟨x, hTask, .refl x⟩
  | cons hMove _ ih =>
    obtain ⟨y, hy, hEndures⟩ := hMove.endures hSound hId hTask
    obtain ⟨z, hz, hEndures'⟩ := ih (hMove.sound hSound) (hMove.akin.globals ▸ hId) hy
    exact ⟨z, hz, hEndures.trans hEndures'⟩

end Roster

namespace Mission

open Roster

def Op.isTick : Op → Bool
  | .tick _ => true
  | _ => false

variable {m : Mission} {ids : List TaskId}

/-- A tick is the calls of its command, a round of the global tasks, and the calls of the front. -/
theorem exists_calls_tick (hSound : m.roster.Sound) (dt : Float32) :
    ∃ front, (m.tick dt).report.calls =
        m.processCommand.report.calls ++ round .update m.roster.globals ++ front ∧
      ∀ c ∈ m.processCommand.report.calls ++ front, c.id ∉ m.roster.globals := by
  have hUntilFront := m.untilFront_moves dt
  have hUntilFallBack := m.untilFallBack_moves dt hSound
  refine ⟨((m.untilFront dt).mission.driveFront dt).report.calls ++
    (m.untilFallBack dt).mission.fallBack.report.calls, ?_, ?_⟩
  · rw [calls_tick, calls_fallBack, List.append_assoc]
    rfl
  · simp only [List.forall_mem_append]
    refine ⟨m.processCommand_turn.id_not_global hSound, ?_, ?_⟩
    · have hDrive := (m.untilFallBack_drive dt hSound).id_not_global (hUntilFront.sound hSound)
      rwa [hUntilFront.akin.globals] at hDrive
    · have hTurn := (m.untilFallBack dt).mission.fallBack_turn.id_not_global
        (hUntilFallBack.sound hSound)
      rwa [hUntilFallBack.akin.globals] at hTurn

theorem callsOf_tick (hSound : m.roster.Sound) (dt : Float32) :
    callsOf m.roster.globals (m.tick dt).report.calls = round .update m.roster.globals := by
  obtain ⟨front, hCalls, hNot⟩ := exists_calls_tick hSound dt
  obtain ⟨hCommand, hFront⟩ := List.forall_mem_append.mp hNot
  rw [hCalls, callsOf_append, callsOf_append, callsOf_round, callsOf_eq_nil hCommand,
    callsOf_eq_nil hFront, List.nil_append, List.append_nil]

theorem callsOf_apply (hSound : m.roster.Sound) (op : Op) :
    callsOf m.roster.globals (m.apply op).report.calls =
      if op.isTick then round .update m.roster.globals else [] := by
  cases op with
  | submit | position | wind | preflight => rfl
  | process => exact callsOf_eq_nil (m.processCommand_turn.id_not_global hSound)
  | request req => exact callsOf_eq_nil ((m.perform_turn req).id_not_global hSound)
  | tick dt => exact callsOf_tick hSound dt

theorem callsOf_run (hSound : m.roster.Sound) (ops : List Op) :
    callsOf m.roster.globals (m.run ops).report.calls =
      (List.replicate (ops.countP Op.isTick) (round .update m.roster.globals)).flatten := by
  induction ops generalizing m with
  | nil => rfl
  | cons op ops ih =>
    have hMoves := apply_moves hSound op
    have hRest := ih (hMoves.sound hSound)
    rw [hMoves.akin.globals] at hRest
    rw [run, Outcome.report_andThen, Report.calls_append, callsOf_append, hRest, callsOf_apply hSound,
      List.countP_cons]
    split
    · rw [List.replicate_succ, List.flatten_cons]
    · rfl

theorem callsOf_launch (p : Plan) (b : Board) :
    callsOf (p.ids .global) (launch p b).report.calls = round .activate (p.ids .global) := by
  rw [calls_launch, List.map_append, callsOf_append]
  have hFront : ∀ c ∈ (p.ids .sequential).head?.toList.map fun id => (⟨id, .activate⟩ : Call),
      c.id ∉ p.ids .global := by
    intro c hc hGlobal
    obtain ⟨id, hId, rfl⟩ := List.mem_map.mp hc
    have hSequential := List.mem_of_mem_head? (by simpa using hId)
    exact absurd (Plan.eq_of_mem_ids hGlobal hSequential) (by decide)
  rw [callsOf_eq_nil hFront, List.append_nil]
  exact callsOf_round .activate

theorem active_launch {p : Plan} {b : Board} {id : TaskId} (hId : id ∈ p.ids .global) :
    ∃ x, (launch p b).mission.roster.task? id = some x ∧ x.phase = .active := by
  obtain ⟨x, hx⟩ := exists_task?_iff.mpr (Plan.lt_size_of_mem_ids hId)
  refine ⟨x.activate, ?_, x.phase_activate⟩
  rw [task?_launch, if_pos (.inl hId), hx, Option.map_some]

theorem global_after {p : Plan} {b : Board} {id : TaskId} (hId : id ∈ p.ids .global) (ops : List Op) :
    ∃ x, (after p b ops).roster.task? id = some x ∧ x.phase ≠ .inactive ∧
      (x.phase = .complete →
        ∀ later, ((after p b ops).run later).mission.roster.task? id = some x) := by
  obtain ⟨x, hx, hActive⟩ := active_launch (b := b) hId
  have hLaunched : id ∈ (launch p b).mission.roster.globals := (launch_akin p b).globals ▸ hId
  have hGlobal : id ∈ (after p b ops).roster.globals := (after_akin p b ops).globals ▸ hId
  obtain ⟨y, hy, hEndures⟩ := (after_moves p b ops).endures (sound_launch p b) hLaunched hx
  refine ⟨y, hy, hEndures.started (by simp [hActive]), fun hComplete later => ?_⟩
  have hSound := sound_after p b ops
  obtain ⟨z, hz, hEndures'⟩ := (run_moves hSound later).endures hSound hGlobal hy
  rw [hz, hEndures'.frozen hComplete]

/--
Over a whole run each global task is activated once, by the launch, and updated
once in each tick, after the hooks of the command and before those of the front.
It is never asked whether it is complete and never closed. It is never inactive
again, and once it is complete it stays as it is, its elapsed time included.
-/
theorem global_rounds (p : Plan) (b : Board) (ops : List Op) :
    let o := (launch p b).andThen (run ops)
    let n := ops.countP Op.isTick
    (o.mission.roster.globals = p.ids .global ∧
      (p.ids .global).map (fun id => (o.mission.roster.task? id).map Task.profile) =
        (p.accepted .global).map fun x => some x.profile) ∧
    (callsOf (p.ids .global) (launch p b).report.calls = round .activate (p.ids .global) ∧
      callsOf (p.ids .global) ((launch p b).mission.run ops).report.calls =
        (List.replicate n (round .update (p.ids .global))).flatten) ∧
    (∀ id ∈ p.ids .global, ∀ hook, o.report.calls.count ⟨id, hook⟩ =
      match hook with
      | .activate => 1
      | .update => n
      | .isComplete => 0
      | .close => 0) ∧
    (∀ dt, ∃ front, (o.mission.tick dt).report.calls =
        o.mission.processCommand.report.calls ++ round .update (p.ids .global) ++ front ∧
      ∀ c ∈ o.mission.processCommand.report.calls ++ front, c.id ∉ p.ids .global) ∧
    ∀ id ∈ p.ids .global, ∃ x, o.mission.roster.task? id = some x ∧ x.phase ≠ .inactive ∧
      (x.phase = .complete → ∀ later, (o.mission.run later).mission.roster.task? id = some x) := by
  intro o n
  have hGlobals : o.mission.roster.globals = p.ids .global := (after_akin p b ops).globals
  have hLaunch := callsOf_launch p b
  have hRun : callsOf (p.ids .global) ((launch p b).mission.run ops).report.calls =
      (List.replicate n (round .update (p.ids .global))).flatten := by
    have hRounds := callsOf_run (sound_launch p b) ops
    rwa [(launch_akin p b).globals] at hRounds
  refine ⟨⟨hGlobals, profiles_after p b ops .global⟩, ⟨hLaunch, hRun⟩, ?_, ?_, ?_⟩
  · intro id hId hook
    have hCount : o.report.calls.count ⟨id, hook⟩ =
        (if hook = .activate then 1 else 0) + n * (if hook = .update then 1 else 0) := by
      rw [← count_callsOf hId, Outcome.report_andThen, Report.calls_append, callsOf_append, hLaunch,
        hRun, List.count_append, List.count_flatten, List.map_replicate, List.sum_replicate_nat,
        count_round Plan.nodup_ids hId, count_round Plan.nodup_ids hId]
    rw [hCount]
    cases hook <;> simp
  · intro dt
    rw [← hGlobals]
    exact exists_calls_tick (sound_after p b ops) dt
  · intro id hId
    exact global_after hId ops

end Mission

end Sortie
