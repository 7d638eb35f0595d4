import Sortie.Proofs.Mission.History

/-!
# The lifecycle of the tasks

Between operations no task but a global one is complete, and what is not on the
stack is inactive. A front that completes breaks this only inside its own tick,
which closes it; the same tick leaves an active front behind.
-/

namespace Sortie

namespace Roster

variable {r s : Roster} {ps : List TaskId} {cs : List Call} {id : TaskId} {x : Task}

def Settled (r : Roster) : Prop :=
  ∀ id x, r.task? id = some x → id ∉ r.globals →
    x.phase ≠ .complete ∧ (id ∉ r.stack → x.phase = .inactive)

def FrontActive (r : Roster) : Prop :=
  ∀ id, r.front? = some id → ∃ x, r.task? id = some x ∧ x.phase = .active

theorem Settled.modify {f : Task → Task} (h : r.Settled) (hId : id ∈ r.stack)
    (hf : ∀ x, r.task? id = some x → (f x).phase ≠ .complete) : (r.modify id f).Settled := by
  intro j y hy hGlobal
  rw [task?_modify] at hy
  split at hy
  · rename_i hj
    subst hj
    obtain ⟨x, hx, rfl⟩ := Option.map_eq_some_iff.mp hy
    exact ⟨hf x hx, fun hNot => absurd hId hNot⟩
  · exact h j y hy hGlobal

theorem Settled.raise (h : r.Settled) : (r.raise id).Settled := by
  have hPush : (r.push id).Settled := by
    intro j y hy hGlobal
    obtain ⟨hPhase, hOff⟩ := h j y hy hGlobal
    exact ⟨hPhase, fun hNot => hOff (List.not_mem_of_not_mem_cons hNot)⟩
  exact hPush.modify List.mem_cons_self fun _ _ => by simp

theorem settled_pop {rest : List TaskId} (hStack : r.stack = id :: rest)
    (h : ∀ j y, r.task? j = some y → j ∉ r.globals → id ≠ j →
      y.phase ≠ .complete ∧ (j ∉ r.stack → y.phase = .inactive)) : r.pop.Settled := by
  intro j y hy hGlobal
  rw [globals_pop] at hGlobal
  rw [task?_pop r id hStack] at hy
  split at hy
  · obtain ⟨x, -, rfl⟩ := Option.map_eq_some_iff.mp hy
    simp
  · rename_i hj
    obtain ⟨hPhase, hOff⟩ := h j y hy hGlobal hj
    refine ⟨hPhase, fun hNot => hOff ?_⟩
    rw [stack_pop, hStack, List.tail_cons] at hNot
    rw [hStack, List.mem_cons, not_or]
    exact ⟨Ne.symm hj, hNot⟩

theorem Settled.turn (h : r.Settled) (hTurn : r.Turn ps cs s) : s.Settled := by
  cases hTurn with
  | keep => exact h
  | push => exact h.raise
  | pop hStack => exact settled_pop hStack fun j y hy hGlobal _ => h j y hy hGlobal

theorem Settled.drive {dt : Float32} {commanded : Option Float32} {report : Report}
    (h : r.Settled) (hDrive : r.Drive dt commanded report s) : s.Settled := by
  -- a front that completes is the only task out of order before it is closed
  have hPop : ∀ {id rest}, r.stack = id :: rest →
      (r.modify id (Task.drive dt commanded)).pop.Settled := by
    intro id rest hStack
    have hDriven : (r.modify id (Task.drive dt commanded)).stack = id :: rest := hStack
    refine settled_pop hDriven fun j y hy hGlobal hj => ?_
    rw [task?_modify_of_ne _ _ _ hj] at hy
    exact h j y hy hGlobal
  cases hDrive with
  | absent => exact h
  | @goesOn id rest x hStack hTask hPhase =>
    apply h.modify (by simp [hStack])
    intro y hy
    rw [hTask] at hy
    cases hy
    exact hPhase
  | ends hStack => exact hPop hStack
  | @handsOver id next rest x y hStack =>
    apply (hPop hStack).modify
    · simp [hStack]
    · intro _ _
      simp

theorem frontActive_of_nil (hStack : r.stack = []) : r.FrontActive := by
  intro id hId
  simp [front?, hStack] at hId

theorem frontActive_of_cons {rest : List TaskId} (hStack : r.stack = id :: rest)
    (hTask : r.task? id = some x) (hPhase : x.phase = .active) : r.FrontActive := by
  intro j hj
  rw [front?, hStack, List.head?_cons] at hj
  cases hj
  exact ⟨x, hTask, hPhase⟩

theorem Drive.frontActive {dt : Float32} {commanded : Option Float32} {report : Report}
    (h : r.Drive dt commanded report s) : s.FrontActive := by
  cases h with
  | absent hStack => exact frontActive_of_nil hStack
  | @goesOn id rest x hStack hTask hPhase =>
    have hDriven : (r.modify id (Task.drive dt commanded)).task? id = some (x.drive dt commanded) := by
      rw [task?_modify_self, hTask, Option.map_some]
    refine frontActive_of_cons (r := r.modify id _) hStack hDriven ?_
    have hNotInactive := x.phase_drive dt commanded
    cases hCase : (x.drive dt commanded).phase <;> simp_all
  | ends hStack => exact frontActive_of_nil (by simp [hStack])
  | @handsOver id next rest x y hStack hTask hPhase hNext =>
    obtain ⟨z, hz, -⟩ := (Akin.of_drive_pop id dt commanded).exists_task? hNext
    refine frontActive_of_cons (r := Roster.modify next _ _) (x := z.activate)
      (stack_pop_of_eq (r.modify id _) id hStack) ?_ z.phase_activate
    rw [task?_modify_self, hz, Option.map_some]

end Roster

namespace Mission

open Roster

variable {m : Mission} {dt : Float32}

theorem settled_untilFront (h : m.roster.Settled) : (m.untilFront dt).mission.roster.Settled := by
  intro id x hx hGlobal
  rw [(m.untilFront_moves dt).akin.globals] at hGlobal
  rw [task?_untilFront m dt hGlobal] at hx
  rw [stack_untilFront]
  apply h.turn m.processCommand_turn id x hx
  rwa [m.processCommand_turn.moves.akin.globals]

theorem settled_apply (hSound : m.roster.Sound) (h : m.roster.Settled) (op : Op) :
    (m.apply op).mission.roster.Settled := by
  cases op with
  | submit | position | wind | preflight => exact h
  | process => exact h.turn m.processCommand_turn
  | request req => exact h.turn (m.perform_turn req)
  | tick dt =>
    have hDriven := (settled_untilFront h).drive (m.untilFallBack_drive dt hSound)
    exact hDriven.turn (m.untilFallBack dt).mission.fallBack_turn

theorem settled_run (hSound : m.roster.Sound) (h : m.roster.Settled) (ops : List Op) :
    (m.run ops).mission.roster.Settled := by
  induction ops generalizing m with
  | nil => exact h
  | cons op ops ih => exact ih ((apply_moves hSound op).sound hSound) (settled_apply hSound h op)

theorem settled_launch (p : Plan) (b : Board) : (launch p b).mission.roster.Settled := by
  intro id x hx hGlobal
  rw [(launch_akin p b).globals] at hGlobal
  rw [stack_launch]
  rw [task?_launch] at hx
  split at hx
  · rename_i hFront
    obtain ⟨y, -, rfl⟩ := Option.map_eq_some_iff.mp hx
    refine ⟨by simp, fun hNot => ?_⟩
    rcases hFront with hMem | hHead
    · exact absurd hMem hGlobal
    · exact absurd (List.mem_of_mem_head? hHead) hNot
  · have hPhase := (Plan.phase_roster hx).1
    exact ⟨by simp [hPhase], fun _ => hPhase⟩

theorem settled_after (p : Plan) (b : Board) (ops : List Op) : (after p b ops).roster.Settled :=
  settled_run (sound_launch p b) (settled_launch p b) ops

theorem frontActive_tick (hSound : m.roster.Sound) (dt : Float32) :
    (m.tick dt).mission.roster.FrontActive := by
  have hDriven := (m.untilFallBack_drive dt hSound).frontActive
  rw [tick_eq, Outcome.mission_andThen]
  generalize (m.untilFallBack dt).mission = n at hDriven
  by_cases hStack : n.roster.stack = []
  · rw [fallBack_eq n hStack]
    cases hFind : n.roster.find? (.name Order.idleName) with
    | none => exact frontActive_of_nil hStack
    | some id =>
      obtain ⟨x, hx, -⟩ := (find?_eq_some_iff.mp hFind).2.fits
      refine frontActive_of_cons (r := n.roster.raise id) rfl (x := x.activate) ?_ x.phase_activate
      rw [task?_raise, if_pos rfl, hx, Option.map_some]
  · rw [fallBack_eq_stay n hStack]
    exact hDriven

/--
Whatever the plan and whatever has happened since the launch, no task but a
global one is complete and what is not on the stack is inactive; and a tick that
leaves a stack leaves an active front.
-/
theorem lifecycle (p : Plan) (b : Board) (ops : List Op) :
    (∀ id x, (after p b ops).roster.task? id = some x → id ∉ (after p b ops).roster.globals →
      x.phase ≠ .complete ∧ (id ∉ (after p b ops).roster.stack → x.phase = .inactive)) ∧
    ∀ dt id, ((after p b ops).tick dt).mission.roster.front? = some id →
      ∃ x, ((after p b ops).tick dt).mission.roster.task? id = some x ∧ x.phase = .active :=
  ⟨settled_after p b ops, frontActive_tick (sound_after p b ops)⟩

end Mission

end Sortie
