import Sortie.Proofs.Mission.History

/-!
# Preemption

While the stack stays longer than it was, what it was stays at its bottom, and
the tasks there keep their state unless they are pushed again. A pop or a resume
exposes such a task as it was left; a task above that completes hands over, and
the exposed task starts afresh.
-/

namespace Sortie

namespace Roster

variable {r₀ r s : Roster} {ps qs : List TaskId} {cs : List Call} {id : TaskId} {rest : List TaskId}
  {dt : Float32} {commanded : Option Float32} {report : Report}

/-- The stack of `r₀` waits under some of the tasks `ps`, and all others on it are as they were. -/
structure Suspends (r₀ : Roster) (ps : List TaskId) (r : Roster) : Prop where
  stack : ∃ above, r.stack = above ++ r₀.stack ∧ ∀ j ∈ above, j ∈ ps
  kept : ∀ j ∈ r₀.stack, j ∉ ps → r.task? j = r₀.task? j

namespace Suspends

theorem refl (r : Roster) : r.Suspends [] r :=
  ⟨⟨[], rfl, by simp⟩, fun _ _ _ => rfl⟩

theorem suffix (h : r₀.Suspends ps r) : r₀.stack <:+ r.stack := by
  obtain ⟨above, hStack, -⟩ := h.stack
  exact ⟨above, hStack.symm⟩

theorem stack_eq (h : r₀.Suspends ps r) (hLength : r.stack.length = r₀.stack.length) :
    r.stack = r₀.stack :=
  (h.suffix.eq_of_length hLength.symm).symm

theorem of_cons (h : r₀.Suspends ps r) (hStack : r.stack = id :: rest)
    (hLength : r₀.stack.length ≤ rest.length) :
    id ∈ ps ∧ ∃ above, rest = above ++ r₀.stack ∧ ∀ j ∈ above, j ∈ ps := by
  obtain ⟨above, hAbove, hPushed⟩ := h.stack
  rw [hStack] at hAbove
  cases above with
  | nil =>
    rw [List.nil_append] at hAbove
    rw [← hAbove, List.length_cons] at hLength
    omega
  | cons j above =>
    rw [List.cons_append, List.cons.injEq] at hAbove
    obtain ⟨rfl, hRest⟩ := hAbove
    exact ⟨hPushed id List.mem_cons_self, above, hRest,
      fun j hj => hPushed j (List.mem_cons_of_mem _ hj)⟩

theorem mono (h : r₀.Suspends ps r) (hSub : ps ⊆ qs) : r₀.Suspends qs r := by
  obtain ⟨above, hStack, hPushed⟩ := h.stack
  exact ⟨⟨above, hStack, fun j hj => hSub (hPushed j hj)⟩,
    fun j hj hNot => h.kept j hj fun hMem => hNot (hSub hMem)⟩

theorem of_task?_eq (h : r₀.Suspends ps r) (hStack : s.stack = r.stack)
    (hTask : ∀ j ∈ r₀.stack, j ∉ ps → s.task? j = r.task? j) : r₀.Suspends ps s where
  stack := by
    rw [hStack]
    exact h.stack
  kept j hj hNot := (hTask j hj hNot).trans (h.kept j hj hNot)

theorem modify (h : r₀.Suspends ps r) (hId : id ∈ ps) (f : Task → Task) :
    r₀.Suspends ps (r.modify id f) := by
  refine h.of_task?_eq (s := r.modify id f) rfl fun j _ hNot => ?_
  have hNe : id ≠ j := fun hEq => hNot (hEq ▸ hId)
  exact task?_modify_of_ne r id f hNe

theorem raise (h : r₀.Suspends ps r) (id : TaskId) : r₀.Suspends (ps ++ [id]) (r.raise id) := by
  have hPush : r₀.Suspends (ps ++ [id]) (r.push id) := by
    obtain ⟨above, hStack, hPushed⟩ := h.stack
    refine ⟨⟨id :: above, ?_, ?_⟩, fun j hj hNot => h.kept j hj ?_⟩
    · rw [stack_push, hStack, List.cons_append]
    · intro j hj
      rcases List.mem_cons.mp hj with rfl | hj
      · simp
      · exact List.mem_append_left _ (hPushed j hj)
    · exact fun hMem => hNot (List.mem_append_left _ hMem)
  exact hPush.modify (by simp) _

theorem pop (h : r₀.Suspends ps r) (hStack : r.stack = id :: rest)
    (hLength : r₀.stack.length ≤ rest.length) : r₀.Suspends ps r.pop := by
  obtain ⟨hId, hRest⟩ := h.of_cons hStack hLength
  refine ⟨?_, fun j hj hNot => ?_⟩
  · rw [stack_pop_of_eq r id hStack]
    exact hRest
  · have hNe : id ≠ j := fun hEq => hNot (hEq ▸ hId)
    rw [task?_pop_of_ne r id hStack hNe]
    exact h.kept j hj hNot

theorem turn (h : r₀.Suspends ps r) (hTurn : r.Turn qs cs s)
    (hLength : r₀.stack.length ≤ s.stack.length) : r₀.Suspends (ps ++ qs) s := by
  cases hTurn with
  | keep => exact h.mono (List.subset_append_left _ _)
  | push => exact h.raise _
  | @pop id rest hStack =>
    rw [stack_pop_of_eq r id hStack] at hLength
    exact (h.pop hStack hLength).mono (List.subset_append_left _ _)

theorem turn_back (h : r₀.Suspends ps r) (hTurn : r.Turn qs cs s)
    (hLength : s.stack.length = r₀.stack.length) : r₀.Suspends ps s := by
  have hNil : qs = [] := hTurn.pushes_eq_nil (hLength ▸ h.suffix.length_le)
  have hBack := h.turn hTurn (Nat.le_of_eq hLength.symm)
  rwa [hNil, List.append_nil] at hBack

theorem pop_driven (h : r₀.Suspends ps r) (hStack : r.stack = id :: rest)
    (hLength : r₀.stack.length ≤ rest.length) (dt : Float32) (commanded : Option Float32) :
    r₀.Suspends ps (r.modify id (Task.drive dt commanded)).pop ∧
      (r.modify id (Task.drive dt commanded)).pop.stack = rest := by
  have hDriven : r₀.Suspends ps (r.modify id (Task.drive dt commanded)) :=
    h.modify (h.of_cons hStack hLength).1 _
  have hTop : (r.modify id (Task.drive dt commanded)).stack = id :: rest := hStack
  exact ⟨hDriven.pop hTop hLength, stack_pop_of_eq _ id hTop⟩

theorem drive (h : r₀.Suspends ps r) (hDrive : r.Drive dt commanded report s)
    (hLength : r₀.stack.length < s.stack.length) : r₀.Suspends ps s := by
  cases hDrive with
  | absent => exact h
  | @goesOn id rest x hStack =>
    rw [stack_modify, hStack, List.length_cons] at hLength
    exact h.modify (h.of_cons hStack (by omega)).1 _
  | ends hStack => simp [hStack] at hLength
  | @handsOver id next rest x y hStack =>
    have hLong : r₀.stack.length ≤ rest.length := by
      simp [hStack] at hLength
      omega
    -- neither the front nor its successor waits
    obtain ⟨hPopped, hRest⟩ :=
      h.pop_driven hStack (Nat.le_succ_of_le hLong) dt commanded
    exact hPopped.modify (hPopped.of_cons hRest hLong).1 _

theorem handOver (h : r₀.Suspends ps r) (hDrive : r.Drive dt commanded report s)
    (hBase : r₀.stack ≠ []) (hBefore : r.stack.length = r₀.stack.length + 1)
    (hAfter : s.stack.length = r₀.stack.length) :
    ∃ f rest x calls, r₀.stack = f :: rest ∧ s.stack = r₀.stack ∧ s.task? f = some x ∧
      x.phase = .active ∧ x.elapsed = 0 ∧ report.calls = calls ++ [⟨f, .activate⟩] ∧
      ∀ j ∈ r₀.stack, j ≠ f → j ∉ ps → s.task? j = r₀.task? j := by
  have hPos := List.length_pos_iff.mpr hBase
  cases hDrive with
  | absent => omega
  | goesOn =>
    rw [stack_modify] at hAfter
    omega
  | ends hStack =>
    rw [hStack, List.length_singleton] at hBefore
    omega
  | @handsOver id next rest x y hStack hTask _ hNext =>
    have hLength : r₀.stack.length = (next :: rest).length := by
      rw [hStack, List.length_cons] at hBefore
      omega
    obtain ⟨hPopped, hRest⟩ := h.pop_driven hStack (Nat.le_of_eq hLength) dt commanded
    have hEq : r₀.stack = next :: rest := by
      rw [← hPopped.stack_eq (by rw [hRest, hLength]), hRest]
    obtain ⟨z, hz, -⟩ := (Akin.of_drive_pop id dt commanded).exists_task? hNext
    refine ⟨next, rest, z.activate, x.driveCalls id ++ [⟨id, .close⟩], hEq, ?_, ?_, rfl, rfl, ?_, ?_⟩
    · rw [stack_modify, hRest, hEq]
    · rw [task?_modify_self, hz, Option.map_some]
    · rw [List.append_assoc]
      rfl
    · intro j hj hNe hNot
      rw [task?_modify_of_ne _ _ _ hNe.symm]
      exact hPopped.kept j hj hNot

end Suspends

end Roster

namespace Mission

open Roster

def StaysAbove (n : Nat) : List Op → Mission → Prop
  | [], _ => True
  | op :: ops, m =>
    n < (m.apply op).mission.roster.stack.length ∧ StaysAbove n ops (m.apply op).mission

variable {m : Mission} {r₀ : Roster} {ps : List TaskId} {n : Nat} {dt : Float32}

theorem StaysAbove.left {xs ys : List Op} (h : StaysAbove n (xs ++ ys) m) : StaysAbove n xs m := by
  induction xs generalizing m with
  | nil => trivial
  | cons x xs ih => exact ⟨h.1, ih h.2⟩

theorem stack_untilFallBack_ne_nil (hLength : 1 < (m.tick dt).mission.roster.stack.length) :
    (m.untilFallBack dt).mission.roster.stack ≠ [] := by
  intro hNil
  have hTurn := (m.untilFallBack dt).mission.fallBack_turn.length_le
  rw [hNil] at hTurn
  rw [tick_eq, Outcome.mission_andThen] at hLength
  rw [List.length_nil] at hTurn
  omega

theorem suspends_untilFront (hSound : m.roster.Sound) (h : r₀.Suspends ps m.roster)
    (hLength : r₀.stack.length ≤ m.processCommand.mission.roster.stack.length) (dt : Float32) :
    r₀.Suspends (ps ++ m.commandPushes) (m.untilFront dt).mission.roster := by
  have hTurn := h.turn m.processCommand_turn hLength
  refine hTurn.of_task?_eq (stack_untilFront m dt) fun j hj _ => ?_
  exact task?_untilFront m dt (hSound.not_global j (.inr (h.suffix.subset hj)))

theorem suspends_tick (hSound : m.roster.Sound) (h : r₀.Suspends ps m.roster)
    (hBase : r₀.stack ≠ []) (hLength : r₀.stack.length < (m.tick dt).mission.roster.stack.length) :
    r₀.Suspends (ps ++ m.pushes (.tick dt)) (m.tick dt).mission.roster := by
  have hPos := List.length_pos_iff.mpr hBase
  have hLong : 1 < (m.tick dt).mission.roster.stack.length := by omega
  -- the fallback leaves one task only, so it did not fire
  have hStack := stack_untilFallBack_ne_nil hLong
  rw [tick_eq_untilFallBack hStack] at hLength ⊢
  have hDrive := m.untilFallBack_drive dt hSound
  have hFront := hDrive.length_le
  rw [stack_untilFront] at hFront
  have hUntilFront := suspends_untilFront hSound h (by omega) dt
  refine (hUntilFront.drive hDrive hLength).mono ?_
  rw [pushes, ← List.append_assoc]
  exact List.subset_append_left _ _

theorem suspends_apply (hSound : m.roster.Sound) (h : r₀.Suspends ps m.roster)
    (hBase : r₀.stack ≠ []) {op : Op}
    (hLength : r₀.stack.length < (m.apply op).mission.roster.stack.length) :
    r₀.Suspends (ps ++ m.pushes op) (m.apply op).mission.roster := by
  cases op with
  | submit | position | wind | preflight => exact h.mono (List.subset_append_left _ _)
  | process => exact h.turn m.processCommand_turn (Nat.le_of_lt hLength)
  | request req => exact h.turn (m.perform_turn req) (Nat.le_of_lt hLength)
  | tick dt => exact suspends_tick hSound h hBase hLength

theorem suspends_run (hSound : m.roster.Sound) (h : r₀.Suspends ps m.roster)
    (hBase : r₀.stack ≠ []) {ops : List Op} (hAbove : StaysAbove r₀.stack.length ops m) :
    r₀.Suspends (ps ++ m.runPushes ops) (m.run ops).mission.roster := by
  induction ops generalizing m ps with
  | nil => exact h.mono (List.subset_append_left _ _)
  | cons op ops ih =>
    have hOp := suspends_apply hSound h hBase hAbove.1
    have hOps := ih ((apply_moves hSound op).sound hSound) hOp hAbove.2
    rw [List.append_assoc] at hOps
    exact hOps

theorem suspends_exposed (h : r₀.Suspends ps m.roster) {op : Op} (hOp : ∀ dt, op ≠ .tick dt)
    (hLength : (m.apply op).mission.roster.stack.length = r₀.stack.length) :
    r₀.Suspends ps (m.apply op).mission.roster := by
  cases op with
  | submit | position | wind | preflight => exact h
  | process => exact h.turn_back m.processCommand_turn hLength
  | request req => exact h.turn_back (m.perform_turn req) hLength
  | tick dt => exact absurd rfl (hOp dt)

/-- The command of a tick brings the stack back: one task is popped before the front is driven. -/
theorem exposed_untilFront (hSound : m.roster.Sound) (h : r₀.Suspends ps m.roster)
    (hBefore : r₀.stack.length < m.roster.stack.length)
    (hAfter : m.processCommand.mission.roster.stack.length = r₀.stack.length) (dt : Float32) :
    r₀.Suspends ps (m.untilFront dt).mission.roster ∧
      (m.untilFront dt).mission.roster.stack = r₀.stack ∧
      ∃ top, m.roster.stack = top :: r₀.stack ∧ (m.untilFront dt).report.calls =
        ⟨top, .close⟩ :: m.roster.globals.map fun id => ⟨id, .update⟩ := by
  have hTurn := m.processCommand_turn
  have hWaiting := suspends_untilFront hSound h (Nat.le_of_eq hAfter.symm) dt
  rw [hTurn.pushes_eq_nil (by omega), List.append_nil] at hWaiting
  have hBack := hWaiting.stack_eq (by rw [stack_untilFront, hAfter])
  obtain ⟨top, below, hStack, hClose, hPop⟩ := hTurn.exists_pop (by omega)
  have hBelow : below = r₀.stack := by
    rw [← hBack, stack_untilFront, hPop, stack_pop_of_eq _ _ hStack]
  refine ⟨hWaiting, hBack, top, by rw [hStack, hBelow], ?_⟩
  rw [calls_untilFront, hClose]
  rfl

theorem exposed_tick (hSound : m.roster.Sound) (h : r₀.Suspends ps m.roster)
    (hBefore : r₀.stack.length < m.roster.stack.length)
    (hAfter : m.processCommand.mission.roster.stack.length = r₀.stack.length)
    {f : TaskId} {rest : List TaskId} {x : Task} (hFront : r₀.stack = f :: rest) (hNot : f ∉ ps)
    (hTask : r₀.task? f = some x) (hPhase : x.phase = .active) (dt : Float32) :
    let y := x.update dt m.processCommand.mission.board.preflight
    ∃ top, m.roster.stack = top :: r₀.stack ∧ f ∉ m.roster.globals ∧
      let calls := Call.mk top .close :: (m.roster.globals.map fun id => Call.mk id .update) ++
        [⟨f, .update⟩, ⟨f, .isComplete⟩]
      (y.phase ≠ .complete → (m.tick dt).report.calls = calls ∧
        (m.tick dt).mission.roster.stack = r₀.stack ∧
        (m.tick dt).mission.roster.task? f = some y ∧
        ∀ j ∈ r₀.stack, j ≠ f → j ∉ ps → (m.tick dt).mission.roster.task? j = r₀.task? j) ∧
      (y.phase = .complete → ∃ next : List TaskId,
        (m.tick dt).report.calls = calls ++ ⟨f, .close⟩ :: next.map fun id => ⟨id, .activate⟩) := by
  intro y
  obtain ⟨hWaiting, hBack, top, hStack, hCalls⟩ := exposed_untilFront hSound h hBefore hAfter dt
  have hMem : f ∈ r₀.stack := by simp [hFront]
  have hDrive := m.untilFallBack_drive dt hSound
  obtain ⟨hGoesOn, hEnds⟩ :=
    hDrive.of_active (hBack.trans hFront) ((hWaiting.kept f hMem hNot).trans hTask) hPhase
  have hFirst : (m.untilFallBack dt).report.calls =
      ⟨top, .close⟩ :: (m.roster.globals.map fun id => Call.mk id .update) ++
        ((m.untilFront dt).mission.driveFront dt).report.calls := by
    rw [untilFallBack, Outcome.report_andThen, Report.calls_append, hCalls]
  refine ⟨top, hStack, hSound.not_global f (.inr (h.suffix.subset hMem)), ?_, ?_⟩
  · intro hNotComplete
    obtain ⟨hFrontCalls, hFrontStack, hFrontTask, hOther⟩ := hGoesOn hNotComplete
    have hNotNil : (m.untilFallBack dt).mission.roster.stack ≠ [] := by
      rw [hFrontStack, hBack, hFront]
      exact List.cons_ne_nil f rest
    rw [tick_eq_untilFallBack hNotNil, hFirst, hFrontCalls, hFrontStack, hBack]
    refine ⟨rfl, rfl, hFrontTask, fun j hj hNe hFree => ?_⟩
    rw [hOther j hNe]
    exact hWaiting.kept j hj hFree
  · intro hComplete
    -- a successor or, if none is left, the idle task takes over
    obtain ⟨-, hFrontCalls⟩ := hEnds hComplete
    refine ⟨rest.head?.toList ++ (m.untilFallBack dt).mission.fallBackPushes, ?_⟩
    rw [tick_eq, Outcome.report_andThen, Report.calls_append, calls_fallBack, hFirst, hFrontCalls]
    simp

theorem handOver_tick (hSound : m.roster.Sound) (h : r₀.Suspends ps m.roster)
    (hBase : r₀.stack ≠ [])
    (hBefore : m.processCommand.mission.roster.stack.length = r₀.stack.length + 1)
    (hAfter : (m.tick dt).mission.roster.stack.length = r₀.stack.length) :
    ∃ f rest x calls, r₀.stack = f :: rest ∧ (m.tick dt).mission.roster.stack = r₀.stack ∧
      (m.tick dt).mission.roster.task? f = some x ∧ x.phase = .active ∧ x.elapsed = 0 ∧
      (m.tick dt).report.calls = calls ++ [⟨f, .activate⟩] ∧
      ∀ j ∈ r₀.stack, j ≠ f → j ∉ ps ++ m.commandPushes →
        (m.tick dt).mission.roster.task? j = r₀.task? j := by
  have hPos := List.length_pos_iff.mpr hBase
  have hDrive := m.untilFallBack_drive dt hSound
  have hShort := hDrive.le_length
  rw [stack_untilFront] at hShort
  have hNotNil : (m.untilFallBack dt).mission.roster.stack ≠ [] :=
    List.length_pos_iff.mp (by omega)
  rw [tick_eq_untilFallBack hNotNil] at hAfter ⊢
  have hWaiting := suspends_untilFront hSound h (by omega) dt
  obtain ⟨f, rest, x, calls, hFront, hStack, hTask, hPhase, hElapsed, hCalls, hOther⟩ :=
    hWaiting.handOver hDrive hBase (by rw [stack_untilFront, hBefore]) hAfter
  refine ⟨f, rest, x, (m.untilFront dt).report.calls ++ calls, hFront, hStack, hTask, hPhase,
    hElapsed, ?_, hOther⟩
  rw [untilFallBack, Outcome.report_andThen, Report.calls_append, hCalls, List.append_assoc]

/--
Let a mission be operated so that its stack stays longer than it was at some
time. First, what it was stays at its bottom, and the tasks there that are not
pushed again keep their state. Second, an operation that is not a tick and brings
the stack back to its length (only a pop or a resume does) brings the stack back,
and those tasks still keep their state. Third, if the command of a tick does so,
an active front that was not pushed again is updated once and not activated
before. Fourth, if the task above completes instead, the front starts afresh.
-/
theorem preemption_transparent (p : Plan) (b : Board) (past ops : List Op)
    (hBase : (after p b past).roster.stack ≠ [])
    (hAbove : StaysAbove (after p b past).roster.stack.length ops (after p b past)) :
    let r := (after p b past).roster
    let ps := (after p b past).runPushes ops
    let m := ((after p b past).run ops).mission
    (∀ done, done <+: ops → r.Suspends ((after p b past).runPushes done)
      ((after p b past).run done).mission.roster) ∧
    (∀ op, (∀ dt, op ≠ .tick dt) → (m.apply op).mission.roster.stack.length = r.stack.length →
      (m.apply op).mission.roster.stack = r.stack ∧
        ∀ id ∈ r.stack, id ∉ ps → (m.apply op).mission.roster.task? id = r.task? id) ∧
    (∀ dt f x, r.stack.length < m.roster.stack.length →
      m.processCommand.mission.roster.stack.length = r.stack.length →
      r.front? = some f → f ∉ ps → r.task? f = some x → x.phase = .active →
      let y := x.update dt m.processCommand.mission.board.preflight
      ∃ top, m.roster.stack = top :: r.stack ∧ f ∉ m.roster.globals ∧
        let calls := Call.mk top .close :: (m.roster.globals.map fun id => Call.mk id .update) ++
          [⟨f, .update⟩, ⟨f, .isComplete⟩]
        (y.phase ≠ .complete → (m.tick dt).report.calls = calls ∧
          (m.tick dt).mission.roster.stack = r.stack ∧
          (m.tick dt).mission.roster.task? f = some y ∧
          ∀ id ∈ r.stack, id ≠ f → id ∉ ps → (m.tick dt).mission.roster.task? id = r.task? id) ∧
        (y.phase = .complete → ∃ next : List TaskId,
          (m.tick dt).report.calls = calls ++ ⟨f, .close⟩ :: next.map fun id => ⟨id, .activate⟩)) ∧
    (∀ dt, m.processCommand.mission.roster.stack.length = r.stack.length + 1 →
      (m.tick dt).mission.roster.stack.length = r.stack.length →
      ∃ f rest x calls, r.stack = f :: rest ∧ (m.tick dt).mission.roster.stack = r.stack ∧
        (m.tick dt).mission.roster.task? f = some x ∧ x.phase = .active ∧ x.elapsed = 0 ∧
        (m.tick dt).report.calls = calls ++ [⟨f, .activate⟩] ∧
        ∀ id ∈ r.stack, id ≠ f → id ∉ ps ++ m.commandPushes →
          (m.tick dt).mission.roster.task? id = r.task? id) := by
  intro r ps m
  have hRun : ∀ done, done <+: ops → r.Suspends ((after p b past).runPushes done)
      ((after p b past).run done).mission.roster := by
    rintro done ⟨later, rfl⟩
    exact suspends_run (sound_after p b past) (.refl r) hBase hAbove.left
  have hSound : m.roster.Sound := (run_moves (sound_after p b past) ops).sound (sound_after p b past)
  have hNow : r.Suspends ps m.roster := hRun ops List.prefix_rfl
  refine ⟨hRun, ?_, ?_, ?_⟩
  · intro op hOp hLength
    have hExposed := suspends_exposed hNow hOp hLength
    exact ⟨hExposed.stack_eq hLength, hExposed.kept⟩
  · intro dt f x hBefore hAfter hFront hNot hTask hPhase
    obtain ⟨rest, hStack⟩ := List.head?_eq_some_iff.mp hFront
    exact exposed_tick hSound hNow hBefore hAfter hStack hNot hTask hPhase dt
  · intro dt hBefore hAfter
    exact handOver_tick hSound hNow hBase hBefore hAfter

/-- A landing interrupts this route until it is popped, and a preflight until it completes. -/
theorem preemption_transparent_route :
    let p : Plan := {
      globals := [{ name := "camera" }]
      sequence := [{ name := "route" }]
      standby := [{ name := "land" }, { name := "preflight" }] }
    let landing : List Op := [.request (.order (.named "land")), .tick 1, .submit "pop"]
    let drill : List Op := [.request (.order (.preflight 0.5))]
    (after p {} [.tick 0.5]).roster.stack ≠ [] ∧
      StaysAbove (after p {} [.tick 0.5]).roster.stack.length landing (after p {} [.tick 0.5]) ∧
      StaysAbove (after p {} [.tick 0.5]).roster.stack.length drill (after p {} [.tick 0.5]) ∧
      (((after p {} [.tick 0.5]).run landing).mission.apply .process).mission.roster.task? 1 =
        (after p {} [.tick 0.5]).roster.task? 1 ∧
      (∃ rest, (((after p {} [.tick 0.5]).run landing).mission.tick 1).report.calls =
        ⟨2, .close⟩ :: ⟨0, .update⟩ :: ⟨1, .update⟩ :: rest) ∧
      ∃ x, (((after p {} [.tick 0.5]).run drill).mission.tick 0.5).mission.roster.task? 1 = some x ∧
        x.elapsed = 0 := by
  intro p landing drill
  have hBase : (after p {} [.tick 0.5]).roster.stack ≠ [] := by decide +kernel
  have hLanding : StaysAbove (after p {} [.tick 0.5]).roster.stack.length landing
      (after p {} [.tick 0.5]) :=
    ⟨by decide +kernel, by decide +kernel, by decide +kernel, trivial⟩
  have hDrill : StaysAbove (after p {} [.tick 0.5]).roster.stack.length drill
      (after p {} [.tick 0.5]) :=
    ⟨by decide +kernel, trivial⟩
  obtain ⟨-, hExposed, hTick, -⟩ := preemption_transparent p {} [.tick 0.5] landing hBase hLanding
  obtain ⟨-, -, -, hHandOver⟩ := preemption_transparent p {} [.tick 0.5] drill hBase hDrill
  refine ⟨hBase, hLanding, hDrill, ?_, ?_, ?_⟩
  · have hBack := (hExposed .process (by simp) (by decide +kernel)).2
    exact hBack 1 (by decide +kernel) (by decide +kernel)
  · have hActive : ((after p {} [.tick 0.5]).roster.task? 1).map Task.phase = some .active := by
      decide +kernel
    obtain ⟨x, hTask, hPhase⟩ := Option.map_eq_some_iff.mp hActive
    obtain ⟨top, hStack, -, hGoesOn, hEnds⟩ := hTick 1 1 x (by decide +kernel) (by decide +kernel)
      (by decide +kernel) (by decide +kernel) hTask hPhase
    have hFront : ((after p {} [.tick 0.5]).run landing).mission.roster.front? = some 2 := by
      decide +kernel
    have hTop : top = 2 := Option.some.inj ((congrArg List.head? hStack).symm.trans hFront)
    have hGlobals : ((after p {} [.tick 0.5]).run landing).mission.roster.globals = [0] := by
      decide +kernel
    rw [hTop, hGlobals] at hGoesOn hEnds
    by_cases hEnd : (x.update 1 ((after p {} [.tick 0.5]).run
        landing).mission.processCommand.mission.board.preflight).phase = .complete
    · obtain ⟨next, hCalls⟩ := hEnds hEnd
      exact ⟨_, hCalls⟩
    · exact ⟨_, (hGoesOn hEnd).1⟩
  · obtain ⟨f, rest, x, -, hStack, -, hTask, -, hElapsed, -⟩ :=
      hHandOver 0.5 (by decide +kernel) (by decide +kernel)
    have hFront : (after p {} [.tick 0.5]).roster.front? = some 1 := by decide +kernel
    have hOne : f = 1 := Option.some.inj ((congrArg List.head? hStack).symm.trans hFront)
    rw [hOne] at hTask
    exact ⟨x, hTask, hElapsed⟩

end Mission

end Sortie
