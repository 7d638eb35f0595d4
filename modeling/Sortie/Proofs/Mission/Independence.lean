import Sortie.Proofs.Mission.Beyond
import Sortie.Proofs.Mission.Refusal

/-!
# What the stack does not depend on

Two plans that differ in their global entries only lead to the same stack, tasks
and events, wherever the vehicle is and whatever wind blows. Only an order writes
where it is and what wind blows, and only into the parameters of an orbit or a
landing, which no request, tick or task reads.
-/

namespace Sortie

namespace Board

def unsensed (b : Board) : Board := { b with position := {}, wind := 0 }

/-- A board without the place and the wind, and without what orders make of them. -/
def blind (b : Board) : Board := { b.unsensed with circle := {}, landing := none }

structure Agree (b c : Board) : Prop where
  request : b.request = c.request
  result : b.result = c.result
  current : b.current = c.current
  preflight : b.preflight = c.preflight

theorem blind_eq_iff {b c : Board} : b.blind = c.blind ↔ b.Agree c := by
  constructor
  · intro h
    simp only [blind, unsensed, mk.injEq, true_and] at h
    obtain ⟨hRequest, hResult, hCurrent, hPreflight⟩ := h
    exact ⟨hRequest, hResult, hCurrent, hPreflight⟩
  · rintro ⟨hRequest, hResult, hCurrent, hPreflight⟩
    simp only [blind, unsensed, hRequest, hResult, hCurrent, hPreflight]

theorem unsensed_eq_iff {b c : Board} :
    b.unsensed = c.unsensed ↔ b.Agree c ∧ b.circle = c.circle ∧ b.landing = c.landing := by
  constructor
  · intro h
    simp only [unsensed, mk.injEq, true_and] at h
    obtain ⟨hRequest, hResult, hCurrent, hCircle, hLanding, hPreflight⟩ := h
    exact ⟨⟨hRequest, hResult, hCurrent, hPreflight⟩, hCircle, hLanding⟩
  · rintro ⟨⟨hRequest, hResult, hCurrent, hPreflight⟩, hCircle, hLanding⟩
    simp only [unsensed, hRequest, hResult, hCurrent, hPreflight, hCircle, hLanding]

theorem aside_blind : Aside blind where
  preflight _ := rfl
  current _ := rfl
  setCurrent _ _ := rfl

end Board

theorem Outcome.write_eq_iff {f : Board → Board} {o u : Outcome} :
    o.write f = u.write f ↔ o.mission.roster = u.mission.roster ∧
      f o.mission.board = f u.mission.board ∧ o.report = u.report := by
  simp only [write, Mission.write, mk.injEq, Mission.mk.injEq, and_assoc]

theorem Outcome.write_andThen_congr {f : Board → Board} {o u : Outcome} {g g' : Mission → Outcome}
    (h : o.write f = u.write f) (h' : (g o.mission).write f = (g' u.mission).write f) :
    (o.andThen g).write f = (u.andThen g').write f := by
  rw [write_eq_iff] at h h'
  rw [write_eq_iff, report_andThen, report_andThen, h.2.2, h'.2.2]
  exact ⟨h'.1, h'.2.1, rfl⟩

theorem Request.blind_publish (req : Request) (r : Roster) (b : Board) :
    (req.publish r b.blind).blind = (req.publish r b).blind := by
  cases req with
  | order o =>
    rw [publish, publish]
    cases o <;> cases r.seek _ <;> rfl
  | resume | pop => rfl

namespace Mission

open Board

variable {m n : Mission}

def Op.isReading : Op → Bool
  | .position _ | .wind _ => true
  | _ => false

def demands (ops : List Op) : List Op := ops.filter fun op => !op.isReading

def readings : List Op → Mission → List (GeoPoint × Float32)
  | [], _ => []
  | op :: ops, m =>
    (if op.isReading then [] else [(m.board.position, m.board.wind)]) ++
      readings ops (m.apply op).mission

/-! ## Blind to the vehicle -/

theorem perform_blind (m : Mission) (req : Request) :
    ((m.write blind).perform req).write blind = (m.perform req).write blind := by
  rw [Outcome.write_eq_iff, board_perform, board_perform]
  exact ⟨m.roster_perform_write req blind, req.blind_publish m.roster m.board,
    m.report_perform_write req blind⟩

theorem processCommand_blind (m : Mission) :
    (m.write blind).processCommand.write blind = m.processCommand.write blind := by
  rcases m.command_cases with hText | ⟨c, hParse⟩ | ⟨hText, e, hParse⟩
  · have hBlind : (m.write blind).board.request = "" := hText
    rw [processCommand_of_nil hText, processCommand_of_nil hBlind]
    rfl
  · have hBlind : Command.parse (m.write blind).board.request = .ok c := hParse
    rw [processCommand_of_ok hParse, processCommand_of_ok hBlind, Outcome.write_eq_iff,
      roster_perform_write, report_perform_write]
    exact ⟨rfl, congrArg (setResult (successText m.board.request))
      (c.request.blind_publish m.roster m.board.clearRequest), rfl⟩
  · have hBlind : Command.parse (m.write blind).board.request = .error e := hParse
    rw [processCommand_of_error hText hParse, processCommand_of_error (m := m.write blind) hText hBlind]
    rfl

theorem apply_blind (m : Mission) (op : Op) :
    ((m.write blind).apply op).write blind = (m.apply op).write blind := by
  cases op with
  | submit | position | wind | preflight => rfl
  | process => exact m.processCommand_blind
  | request req => exact m.perform_blind req
  | tick dt =>
    have hProceed := fun n : Mission => proceed_write n dt aside_blind
    calc ((m.write blind).tick dt).write blind
      _ = ((m.write blind).processCommand.write blind).andThen (·.proceed dt) := by
        rw [tick_eq_proceed, Outcome.write_andThen hProceed]
      _ = (m.processCommand.write blind).andThen (·.proceed dt) := by rw [processCommand_blind]
      _ = (m.tick dt).write blind := by rw [tick_eq_proceed, Outcome.write_andThen hProceed]

/-- What is read off the vehicle changes nothing but the place and the wind. -/
theorem run_reading {op : Op} (h : op.isReading) : ∃ f : Board → Board,
    (m.apply op).mission = m.write f ∧ (∀ ops, m.run (op :: ops) = (m.write f).run ops) ∧
      ∀ b, (f b).unsensed = b.unsensed := by
  cases op with
  | position p => exact ⟨({ · with position := p }), rfl, fun _ => rfl, fun _ => rfl⟩
  | wind w => exact ⟨({ · with wind := w }), rfl, fun _ => rfl, fun _ => rfl⟩
  | _ => simp [Op.isReading] at h

theorem run_blind (h : m.write blind = n.write blind) (ops : List Op) :
    (m.run ops).write blind = (n.run (demands ops)).write blind := by
  induction ops generalizing m n with
  | nil => exact congrArg stay h
  | cons op ops ih =>
    by_cases hReading : op.isReading
    · obtain ⟨f, -, hRun, hKeeps⟩ := run_reading (m := m) hReading
      have hDemands : demands (op :: ops) = demands ops := by simp [demands, hReading]
      have hRead : (m.write f).write blind = m.write blind :=
        congrArg (fun b : Board => Mission.mk m.roster { b with circle := {}, landing := none })
          (hKeeps m.board)
      rw [hRun, hDemands]
      exact ih (hRead.trans h)
    · have hDemands : demands (op :: ops) = op :: demands ops := by simp [demands, hReading]
      have hOp : (m.apply op).write blind = (n.apply op).write blind := by
        rw [← apply_blind m, h, apply_blind n]
      rw [hDemands]
      exact Outcome.write_andThen_congr hOp (ih (congrArg Outcome.mission hOp))

/-! ## The same readings -/

/-- The run in which the vehicle is read right before each demand. -/
def paced : List Op → List (GeoPoint × Float32) → List Op
  | op :: ops, (p, w) :: later => .position p :: .wind w :: op :: paced ops later
  | _, _ => []

theorem run_unsensed (h : m.write unsensed = n.write unsensed) (ops : List Op) :
    (m.run ops).write unsensed = (n.run (paced (demands ops) (readings ops m))).write unsensed := by
  induction ops generalizing m n with
  | nil => exact congrArg stay h
  | cons op ops ih =>
    by_cases hReading : op.isReading
    · obtain ⟨f, hApply, hRun, hKeeps⟩ := run_reading (m := m) hReading
      have hDemands : demands (op :: ops) = demands ops := by simp [demands, hReading]
      have hReadings : readings (op :: ops) m = readings ops (m.write f) := by
        rw [readings, if_pos hReading, hApply, List.nil_append]
      have hRead : (m.write f).write unsensed = m.write unsensed :=
        congrArg (Mission.mk m.roster) (hKeeps m.board)
      rw [hRun, hDemands, hReadings]
      exact ih (hRead.trans h)
    · have hDemands : demands (op :: ops) = op :: demands ops := by simp [demands, hReading]
      have hReadings : readings (op :: ops) m =
          (m.board.position, m.board.wind) :: readings ops (m.apply op).mission := by
        rw [readings, if_neg hReading, List.singleton_append]
      -- once it is read as in `m`, the other mission is `m` itself
      have hRead : (n.write ({ · with position := m.board.position })).write
          ({ · with wind := m.board.wind }) = m := by
        have hRoster : n.roster = m.roster := (congrArg Mission.roster h).symm
        have hBoard : n.board.unsensed = m.board.unsensed := (congrArg Mission.board h).symm
        have hRead := congrArg
          (fun b : Board => { b with position := m.board.position, wind := m.board.wind }) hBoard
        exact congrArg₂ Mission.mk hRoster hRead
      have hPaced : n.run (paced (demands (op :: ops)) (readings (op :: ops) m)) =
          m.run (op :: paced (demands ops) (readings ops (m.apply op).mission)) := by
        rw [hDemands, hReadings]
        exact congrArg (run (op :: paced _ _)) hRead
      rw [hPaced]
      exact Outcome.write_andThen_congr rfl (ih rfl)

theorem readings_beyond {k : Nat} (h : m.roster.Apart k) (hSound : m.roster.Sound) (ops : List Op) :
    readings ops (m.beyond k) = readings ops m := by
  induction ops generalizing m with
  | nil => rfl
  | cons op ops ih =>
    have hMoves := apply_moves hSound op
    have hOp : ((m.beyond k).apply op).mission = (m.apply op).mission.beyond k :=
      congrArg Outcome.mission (apply_beyond h hSound op).symm
    rw [readings, readings, hOp, ih (h.moves hMoves) (hMoves.sound hSound)]
    rfl

/-! ## Two launches -/

theorem activateAll_write (f : Board → Board) (ids : List TaskId) :
    (m.write f).activateAll ids = (m.activateAll ids).write f := by
  induction ids generalizing m with
  | nil => rfl
  | cons id ids ih =>
    exact Outcome.write_andThen (g := activateAll ids) (fun _ => ih) (m.activate id)

theorem launch_congr (p : Plan) {f : Board → Board} {b c : Board} (h : f b = f c) :
    (launch p b).mission.write f = (launch p c).mission.write f := by
  have hMuster : (Mission.mk p.roster b).write f = (Mission.mk p.roster c).write f :=
    congrArg (Mission.mk p.roster) h
  simp only [mission_launch, mission_muster, ← Outcome.mission_write, ← activateAll_write, hMuster]

/--
Two plans with the same sequence and the same standby catalog, over boards that
agree, meet the same demands, while the vehicle is read at any time and anywhere.
Up to the number of global tasks their stacks are the same and so are their other
tasks; they report the same events, and their boards still agree. If the vehicle
is read to be in the same place and the same wind at each demand, the boards
agree on the orbit and the landing, too.
-/
theorem stack_independent (p q : Plan) (b c : Board) (xs ys : List Op)
    (hSequence : p.sequence = q.sequence) (hStandby : p.standby = q.standby) (hBoards : b.Agree c)
    (hDemands : demands xs = demands ys) :
    let o := (launch p b).mission.run xs
    let u := (launch q c).mission.run ys
    let i := (p.accepted .global).length
    let j := (q.accepted .global).length
    (o.mission.roster.globals = List.range i ∧ u.mission.roster.globals = List.range j) ∧
    (∃ ids : List Nat,
      o.mission.roster.stack = ids.map (i + ·) ∧ u.mission.roster.stack = ids.map (j + ·)) ∧
    (∀ id, o.mission.roster.task? (i + id) = u.mission.roster.task? (j + id)) ∧
    o.report.events = u.report.events ∧
    o.mission.board.Agree u.mission.board ∧
    (b.circle = c.circle → b.landing = c.landing →
      readings xs (launch p b).mission = readings ys (launch q c).mission →
      o.mission.board.circle = u.mission.board.circle ∧
        o.mission.board.landing = u.mission.board.landing) := by
  intro o u i j
  have hPlans : q.withoutGlobals = p.withoutGlobals := by
    simp only [Plan.withoutGlobals, hSequence, hStandby]
  -- both runs are compared with those of the plan without its global entries
  have hO : o.beyond i = (launch p.withoutGlobals b).mission.run xs := run_launch_beyond p b xs
  have hU : u.beyond j = (launch p.withoutGlobals c).mission.run ys := hPlans ▸ run_launch_beyond q c ys
  have hBlind : (o.beyond i).write blind = (u.beyond j).write blind := by
    have hLaunch := launch_congr p.withoutGlobals (blind_eq_iff.mpr hBoards)
    rw [hO, hU, run_blind hLaunch xs, hDemands]
    exact (run_blind rfl ys).symm
  obtain ⟨hRoster, hBoard, hReport⟩ := Outcome.write_eq_iff.mp hBlind
  have hEvents : (o.beyond i).report.events = (u.beyond j).report.events :=
    congrArg Report.events hReport
  have hApartO : o.mission.roster.Apart i := (apart_launch p b).moves (after_moves p b xs)
  have hApartU : u.mission.roster.Apart j := (apart_launch q c).moves (after_moves q c ys)
  refine ⟨⟨?_, ?_⟩, ⟨(o.mission.roster.beyond i).stack, hApartO.stack_eq, ?_⟩, fun id => ?_,
    hEvents, blind_eq_iff.mp hBoard, ?_⟩
  · exact (after_akin p b xs).globals.trans p.ids_global
  · exact (after_akin q c ys).globals.trans q.ids_global
  · exact hApartU.stack_eq.trans (congrArg (fun r : Roster => r.stack.map (j + ·)) hRoster.symm)
  · rw [← Roster.task?_beyond, ← Roster.task?_beyond]
    exact congrArg (fun r : Roster => r.task? id) hRoster
  · intro hCircle hLanding hReadings
    have hUnsensed : (o.beyond i).write unsensed = (u.beyond j).write unsensed := by
      have hLaunch := launch_congr p.withoutGlobals (unsensed_eq_iff.mpr ⟨hBoards, hCircle, hLanding⟩)
      have hReadO := readings_beyond (apart_launch p b) (sound_launch p b) xs
      have hReadU := readings_beyond (apart_launch q c) (sound_launch q c) ys
      rw [launch_beyond] at hReadO hReadU
      rw [hPlans] at hReadU
      rw [hO, hU, run_unsensed hLaunch xs, run_unsensed rfl ys, hReadO, hReadU, hDemands, hReadings]
    obtain ⟨-, hSame, -⟩ := Outcome.write_eq_iff.mp hUnsensed
    exact (unsensed_eq_iff.mp hSame).2

/-- An orbit and a landing are asked for in two winds, and then in the same wind read twice. -/
theorem stack_independent_of_wind :
    let p : Plan := {
      globals := [{ name := "camera" }, { name := "gimbal" }, { name := "switches" }]
      sequence := [{ name := "route" }]
      standby := [{ name := "circle", nickname := some "circle_target" }, { name := "land" }] }
    let q : Plan := { p with globals := [] }
    let ops : List Op := [.submit "circle", .tick 0.5, .request (.order (.land none)), .tick 0.5]
    let o := (launch p {}).mission.run (.wind 270 :: ops)
    let u := (launch q { wind := 90 }).mission.run ops
    let v := (launch q { wind := 90 }).mission.run (.wind 180 :: .wind 270 :: ops)
    o.mission.roster.stack = [4, 3, 2] ∧ u.mission.roster.stack = [2, 1, 0] ∧
      o.report.events = u.report.events ∧ o.mission.board.landing ≠ u.mission.board.landing ∧
      o.mission.board.landing = v.mission.board.landing := by
  intro p q ops o u v
  have hBoards : Board.Agree {} { wind := 90 } := ⟨rfl, rfl, rfl, rfl⟩
  have hReadings : readings (.wind 270 :: ops) (launch p {}).mission =
      readings (.wind 180 :: .wind 270 :: ops) (launch q { wind := 90 }).mission := by
    decide +kernel
  have hDemands : demands (.wind 270 :: ops) = demands ops := by
    simp [demands, Op.isReading]
  have hDemands' : demands (.wind 270 :: ops) = demands (.wind 180 :: .wind 270 :: ops) := by
    simp [demands, Op.isReading]
  obtain ⟨-, -, -, hEvents, -⟩ :=
    stack_independent p q {} { wind := 90 } _ _ rfl rfl hBoards hDemands
  obtain ⟨-, -, -, -, -, hParameters⟩ :=
    stack_independent p q {} { wind := 90 } _ _ rfl rfl hBoards hDemands'
  obtain ⟨-, hLanding⟩ := hParameters rfl rfl hReadings
  have hStack : o.mission.roster.stack = [4, 3, 2] := by decide +kernel
  have hStack' : u.mission.roster.stack = [2, 1, 0] := by decide +kernel
  have hOther : o.mission.board.landing ≠ u.mission.board.landing := by decide +kernel
  refine ⟨hStack, hStack', hEvents, hOther, ?_⟩
  dsimp only [o, v]
  exact hLanding

end Mission

end Sortie
