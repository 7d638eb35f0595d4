import Sortie.Proofs.Mission.History

/-!
# The shape of the stack

Standby tasks that were pushed stand in front of what is left of the configured
sequence. The sequence is only ever shortened, at its front and one task at a
time, and nothing is pushed that no order can call.
-/

namespace Sortie

def closedAmong (ids : List TaskId) (cs : List Call) : List TaskId :=
  cs.filterMap fun c => if c.hook = .close ∧ c.id ∈ ids then some c.id else none

theorem closedAmong_append (ids : List TaskId) (cs ds : List Call) :
    closedAmong ids (cs ++ ds) = closedAmong ids cs ++ closedAmong ids ds :=
  List.filterMap_append

theorem closedAmong_close {ids : List TaskId} {id : TaskId} (h : id ∈ ids) :
    closedAmong ids [⟨id, .close⟩] = [id] := by
  simp [closedAmong, h]

theorem closedAmong_eq_nil {ids : List TaskId} {cs : List Call}
    (h : ∀ c ∈ cs, c.hook = .close → c.id ∉ ids) : closedAmong ids cs = [] := by
  rw [closedAmong, List.filterMap_eq_nil_iff]
  intro c hc
  exact if_neg fun hBoth => h c hc hBoth.1 hBoth.2

namespace Roster

variable {r s : Roster} {ps : List TaskId} {cs : List Call} {id : TaskId} {seq retired : List TaskId}

def Callable (r : Roster) (id : TaskId) : Prop :=
  ∃ x, r.task? id = some x ∧
    (r.IsFirst (.name x.name) id ∨ x.nickname ≠ "" ∧ r.IsFirst (.nickname x.nickname) id)

theorem callable_of_seek {t : Target} (h : r.seek t = .standby id) : r.Callable id := by
  obtain ⟨hKey, hFirst⟩ := find?_eq_some_iff.mp (seek_eq_standby_iff.mp h).2
  obtain ⟨x, hx, hFits⟩ := hFirst.fits
  refine ⟨x, hx, ?_⟩
  cases t with
  | name key =>
    have hName : x.name = key := of_decide_eq_true hFits
    exact .inl (hName ▸ hFirst)
  | nickname key =>
    have hNickname : x.nickname = key := of_decide_eq_true hFits
    rw [hNickname]
    exact .inr ⟨hKey, hFirst⟩

theorem Callable.of_akin (h : r.Callable id) (hAkin : r.Akin s) : s.Callable id := by
  obtain ⟨x, hx, hFirst⟩ := h
  obtain ⟨y, hy, hProfile⟩ := hAkin.exists_task? hx
  refine ⟨y, hy, ?_⟩
  rw [Task.name, Task.nickname, hProfile, hAkin.isFirst_iff, hAkin.isFirst_iff]
  exact hFirst

/--
Callable standby tasks stand in front of what is left of a sequence. The rest of
the sequence is retired, in its order.
-/
structure Layered (seq retired : List TaskId) (r : Roster) : Prop where
  split : ∃ pushed left, r.stack = pushed ++ left ∧ retired ++ left = seq ∧
    ∀ id ∈ pushed, id ∈ r.standby ∧ r.Callable id
  disjoint : ∀ id ∈ r.standby, id ∉ seq

namespace Layered

theorem of_split {before : List TaskId} (h : Layered seq before r) (hAkin : r.Akin s)
    (pushed left : List TaskId) (hStack : s.stack = pushed ++ left) (hSeq : retired ++ left = seq)
    (hPushed : ∀ id ∈ pushed, id ∈ r.standby ∧ r.Callable id) : Layered seq retired s where
  split := by
    refine ⟨pushed, left, hStack, hSeq, fun id hId => ?_⟩
    obtain ⟨hStandby, hCallable⟩ := hPushed id hId
    exact ⟨hAkin.standby ▸ hStandby, hCallable.of_akin hAkin⟩
  disjoint := by
    rw [hAkin.standby]
    exact h.disjoint

theorem move (h : Layered seq retired r) (hMove : r.Move ps cs s) :
    Layered seq (retired ++ closedAmong seq cs) s := by
  obtain ⟨pushed, left, hStack, hSeq, hPushed⟩ := h.split
  have hKeep : s.stack = r.stack → (∀ c ∈ cs, c.hook ≠ .close) →
      Layered seq (retired ++ closedAmong seq cs) s := by
    intro hSame hNoClose
    rw [closedAmong_eq_nil fun c hc hClose => absurd hClose (hNoClose c hc), List.append_nil]
    exact h.of_split hMove.akin pushed left (hSame.trans hStack) hSeq hPushed
  cases hMove with
  | activate | ask | updateFront | updateGlobal => exact hKeep rfl (by simp)
  | @push t id hSeek =>
    rw [closedAmong_eq_nil (by simp), List.append_nil]
    refine h.of_split Akin.of_raise (id :: pushed) left (by simp [hStack]) hSeq ?_
    intro j hj
    rcases List.mem_cons.mp hj with rfl | hj
    · exact ⟨mem_standby_of_seek hSeek, callable_of_seek hSeek⟩
    · exact hPushed j hj
  | @pop id rest hTop =>
    have hRest := stack_pop_of_eq r id hTop
    rw [hTop] at hStack
    cases pushed with
    | nil =>
      -- the front of the sequence itself is retired
      have hLeft : left = id :: rest := hStack.symm
      subst hLeft
      have hMem : id ∈ seq := by simp [← hSeq]
      rw [closedAmong_close hMem]
      refine h.of_split Akin.of_pop [] rest hRest ?_ (by simp)
      rw [List.append_assoc]
      exact hSeq
    | cons j pushed =>
      rw [List.cons_append, List.cons.injEq] at hStack
      obtain ⟨rfl, rfl⟩ := hStack
      have hNot : id ∉ seq := h.disjoint id (hPushed id List.mem_cons_self).1
      rw [closedAmong_eq_nil (by simpa using hNot), List.append_nil]
      exact h.of_split Akin.of_pop pushed left hRest hSeq fun k hk => hPushed k (List.mem_cons_of_mem _ hk)

theorem moves (h : Layered seq retired r) (hMoves : r.Moves ps cs s) :
    Layered seq (retired ++ closedAmong seq cs) s := by
  induction hMoves generalizing retired with
  | nil => simpa [closedAmong] using h
  | cons hMove _ ih =>
    rw [closedAmong_append, ← List.append_assoc]
    exact ih (h.move hMove)

theorem not_mem_stack (h : Layered seq retired r) (hNodup : seq.Nodup) (hId : id ∈ retired) :
    id ∉ r.stack := by
  obtain ⟨pushed, left, hStack, rfl, hPushed⟩ := h.split
  rw [hStack, List.mem_append, not_or]
  constructor
  · intro hMem
    exact h.disjoint id (hPushed id hMem).1 (List.mem_append_left _ hId)
  · intro hMem
    exact (List.nodup_append.mp hNodup).2.2 id hId id hMem rfl

theorem activate_move (h : Layered seq retired r) (hMove : r.Move ps cs s)
    (hCall : ⟨id, .activate⟩ ∈ cs) : id ∈ seq ∨ r.Callable id := by
  cases hMove with
  | pop | ask | updateFront | updateGlobal => simp at hCall
  | push hSeek =>
    obtain ⟨rfl, -⟩ := by simpa using hCall
    exact .inr (callable_of_seek hSeek)
  | activate hTop =>
    obtain ⟨rfl, -⟩ := by simpa using hCall
    obtain ⟨pushed, left, hStack, rfl, hPushed⟩ := h.split
    have hMem : id ∈ pushed ++ left := by simp [← hStack, hTop]
    rcases List.mem_append.mp hMem with hMem | hMem
    · exact .inr (hPushed id hMem).2
    · exact .inl (List.mem_append_right _ hMem)

theorem activate_moves (h : Layered seq retired r) (hMoves : r.Moves ps cs s)
    (hCall : ⟨id, .activate⟩ ∈ cs) : id ∈ seq ∨ r.Callable id := by
  induction hMoves generalizing retired with
  | nil => simp at hCall
  | cons hMove _ ih =>
    rcases List.mem_append.mp hCall with hCall | hCall
    · exact h.activate_move hMove hCall
    · rcases ih (h.move hMove) hCall with hSeq | hCallable
      · exact .inl hSeq
      · exact .inr (hCallable.of_akin hMove.akin.symm)

end Layered

end Roster

namespace Mission

open Roster

theorem layered_launch (p : Plan) (b : Board) :
    Layered (p.ids .sequential) [] (launch p b).mission.roster where
  split := ⟨[], p.ids .sequential, stack_launch p b, rfl, by simp⟩
  disjoint id hStandby hSequential := by
    rw [(launch_akin p b).standby] at hStandby
    exact absurd (Plan.eq_of_mem_ids hStandby hSequential) (by decide)

theorem closedAmong_launch (p : Plan) (b : Board) (ids : List TaskId) :
    closedAmong ids (launch p b).report.calls = [] := by
  rw [calls_launch]
  apply closedAmong_eq_nil
  intro c hc hClose
  obtain ⟨j, -, rfl⟩ := List.mem_map.mp hc
  cases hClose

theorem activate_not_mem_launch {p : Plan} {b : Board} {id : TaskId} (hStandby : id ∈ p.ids .standby) :
    ⟨id, .activate⟩ ∉ (launch p b).report.calls := by
  rw [calls_launch]
  intro hCall
  obtain ⟨j, hj, hEq⟩ := List.mem_map.mp hCall
  cases hEq
  rcases List.mem_append.mp hj with hGlobal | hFront
  · exact absurd (Plan.eq_of_mem_ids hStandby hGlobal) (by decide)
  · have hSequential := List.mem_of_mem_head? (by simpa using hFront)
    exact absurd (Plan.eq_of_mem_ids hStandby hSequential) (by decide)

/--
The stack of a launched mission consists of standby tasks, each the first with
its name or the first with its nickname, in front of what is left of the accepted
sequential entries. So no global task is ever on it, the sequential tasks are
closed in the order of the plan, each once at most and for good, and a standby
task that others shadow on name and nickname is never activated.
-/
theorem stack_shape (p : Plan) (b : Board) (ops : List Op) :
    let o := (launch p b).andThen (run ops)
    let r := o.mission.roster
    let seq := p.ids .sequential
    let retired := closedAmong seq o.report.calls
    (seq.Nodup ∧ seq.map (fun id => (r.task? id).map Task.profile) =
      (p.accepted .sequential).map fun x => some x.profile) ∧
    (∃ pushed left, r.stack = pushed ++ left ∧ retired ++ left = seq ∧
      ∀ id ∈ pushed, id ∈ r.standby ∧ r.Callable id) ∧
    (∀ id ∈ r.globals, id ∉ r.stack) ∧
    retired.Nodup ∧
    (∀ later, ∀ id ∈ retired, id ∉ (o.mission.run later).mission.roster.stack) ∧
    (∀ id ∈ r.standby, ¬ r.Callable id → ⟨id, .activate⟩ ∉ o.report.calls) := by
  intro o r seq retired
  have hMoves := after_moves p b ops
  have hSound : r.Sound := sound_after p b ops
  have hRetired : retired = closedAmong seq ((launch p b).mission.run ops).report.calls := by
    calc retired
      _ = closedAmong seq ((launch p b).report.calls ++
            ((launch p b).mission.run ops).report.calls) := rfl
      _ = closedAmong seq ((launch p b).mission.run ops).report.calls := by
        rw [closedAmong_append, closedAmong_launch, List.nil_append]
  have hLayered : Layered seq retired r := by
    rw [hRetired]
    exact (layered_launch p b).moves hMoves
  refine ⟨⟨Plan.nodup_ids, profiles_after p b ops .sequential⟩, hLayered.split, ?_, ?_, ?_, ?_⟩
  · intro id hGlobal hStack
    exact hSound.not_global id (.inr hStack) hGlobal
  · obtain ⟨-, left, -, hSeq, -⟩ := hLayered.split
    have hNodup : (retired ++ left).Nodup := hSeq ▸ Plan.nodup_ids
    exact (List.nodup_append.mp hNodup).1
  · intro later id hId
    have hLater := hLayered.moves (run_moves hSound later)
    exact hLater.not_mem_stack Plan.nodup_ids (List.mem_append_left _ hId)
  · intro id hStandby hShadowed hCall
    rw [Outcome.report_andThen, Report.calls_append, List.mem_append] at hCall
    rcases hCall with hLaunch | hRun
    · have hIds : r.standby = p.ids .standby := (after_akin p b ops).standby
      exact activate_not_mem_launch (hIds ▸ hStandby) hLaunch
    · rcases (layered_launch p b).activate_moves hMoves hRun with hSeq | hCallable
      · exact hLayered.disjoint id hStandby hSeq
      · exact hShadowed (hCallable.of_akin hMoves.akin)

end Mission

end Sortie
