import Sortie.Proofs.Mission.Repetition

/-!
# What a request writes

On the board a request writes parameters of tasks and nothing else. An order to
circle a point always does, one to start the preflight does unless that task is at
the front, a landing and a descent do when their task is pushed, and all others
never do. In the roster an order raises one standby task or touches nothing.
-/

namespace Sortie

/-- Only parameters of tasks are written. -/
theorem Order.publish_keeps (w : Whereabouts) (o : Order) (b : Board) :
    (o.publish w b).position = b.position ∧ (o.publish w b).wind = b.wind ∧
      (o.publish w b).request = b.request ∧ (o.publish w b).result = b.result ∧
      (o.publish w b).current = b.current := by
  cases o <;> cases w <;> exact ⟨rfl, rfl, rfl, rfl, rfl⟩

namespace Mission

open Roster

variable {m : Mission} {o : Order}

def Grows (m : Mission) (req : Request) : Prop :=
  m.roster.stack.length < (m.perform req).mission.roster.stack.length

theorem grows_order_iff : m.Grows (.order o) ↔ ∃ id, m.roster.seek o.target = .standby id := by
  rw [Grows, perform, roster_order]
  cases m.roster.seek o.target <;> simp

theorem board_perform_keeps (m : Mission) (req : Request) :
    let b := (m.perform req).mission.board
    b.position = m.board.position ∧ b.wind = m.board.wind ∧ b.request = m.board.request ∧
      b.result = m.board.result ∧ b.current = m.board.current := by
  intro b
  have hBoard : b = req.publish m.roster m.board := board_perform m req
  rw [hBoard]
  cases req with
  | order o => exact o.publish_keeps (m.roster.seek o.target) m.board
  | resume | pop => exact ⟨rfl, rfl, rfl, rfl, rfl⟩

/-- An order that writes when its task is pushed, and only then, shows by its writing that it was. -/
theorem board_of_pushing {b : Board} (hPush : ∀ id, o.publish (.standby id) m.board = b)
    (hFront : o.publish .atFront m.board = m.board)
    (hNowhere : o.publish .nowhere m.board = m.board) :
    (m.Grows (.order o) → (m.perform (.order o)).mission.board = b) ∧
      (¬ m.Grows (.order o) → (m.perform (.order o)).mission.board = m.board) := by
  have hBoard : (m.perform (.order o)).mission.board = o.publish (m.roster.seek o.target) m.board :=
    board_perform m (.order o)
  rw [grows_order_iff, hBoard]
  cases m.roster.seek o.target with
  | atFront => exact ⟨fun h => absurd h (by simp), fun _ => hFront⟩
  | standby id => exact ⟨fun _ => hPush id, fun h => absurd ⟨id, rfl⟩ h⟩
  | nowhere => exact ⟨fun h => absurd h (by simp), fun _ => hNowhere⟩

/-- The duration is written before the task is looked for, but not before the front is looked at. -/
theorem board_preflight (m : Mission) (duration : Float32) :
    let b := (m.perform (.order (.preflight duration))).mission.board
    (m.roster.AtFront (.name Order.preflightName) → b = m.board) ∧
      (¬ m.roster.AtFront (.name Order.preflightName) →
        b = { m.board with preflight := some duration }) := by
  intro b
  have hBoard : b = (Order.preflight duration).publish
      (m.roster.seek (.name Order.preflightName)) m.board := board_perform m _
  rw [hBoard, ← seek_eq_atFront_iff]
  cases m.roster.seek (.name Order.preflightName) with
  | atFront => exact ⟨fun _ => rfl, fun h => absurd rfl h⟩
  | standby | nowhere => exact ⟨Whereabouts.noConfusion, fun _ => rfl⟩

theorem roster_order_cases (m : Mission) (o : Order) :
    (m.order o).mission.roster = m.roster ∨
      ∃ id x, m.roster.IsFirst o.target id ∧ m.roster.task? id = some x ∧
        (m.order o).mission.roster.stack = id :: m.roster.stack ∧
        (m.order o).mission.roster.task? id = some x.activate ∧
        ∀ j ≠ id, (m.order o).mission.roster.task? j = m.roster.task? j := by
  rw [roster_order]
  cases hSeek : m.roster.seek o.target with
  | atFront | nowhere => exact .inl rfl
  | standby id =>
    have hFirst := isFirst_of_seek hSeek
    obtain ⟨x, hTask, -⟩ := hFirst.fits
    refine .inr ⟨id, x, hFirst, hTask, rfl, ?_, fun j hj => task?_raise_of_ne _ _ hj.symm⟩
    rw [task?_raise, if_pos rfl, hTask, Option.map_some]

/--
What a request leaves on the board. Where the vehicle is, the wind, both slots of the
command and the name of the front stay in any case. An order to circle a point writes
the center, always; a landing writes its heading and a descent the whole of its orbit
if they push their task, and otherwise nothing; the preflight writes its duration
unless its task is at the front, even if there is none; and the other requests write
nothing. An order leaves the roster alone or pushes one standby task afresh, and no
other task shows a trace of it.
-/
theorem request_writes (m : Mission) :
    let b := m.board
    let left (req : Request) : Board := (m.perform req).mission.board
    (∀ req, (left req).position = b.position ∧ (left req).wind = b.wind ∧
      (left req).request = b.request ∧ (left req).result = b.result ∧
      (left req).current = b.current) ∧
    (∀ c ∈ [Command.home, .idle, .resume, .pop, .calibrate, .route, .parametric],
      left c.request = b) ∧
    (∀ name, left (.order (.named name)) = b) ∧
    (∀ target, left (Command.circle target).request =
      { b with circle := { b.circle with target := target.getD b.position } }) ∧
    (∀ heading, let req := (Command.land heading).request
      (m.Grows req → left req = { b with landing := some (heading.getD b.wind) }) ∧
      (¬ m.Grows req → left req = b)) ∧
    (∀ d : Descent, let req := Request.order (.descent d)
      (m.Grows req → left req = { b with circle := {
        target := d.target.getD b.position, radius := some d.radius, direction := some d.direction,
        exitAgl := some d.exitAgl, exitHeading := some d.exitHeading } }) ∧
      (¬ m.Grows req → left req = b)) ∧
    (∀ duration, let req := (Command.preflight duration).request
      (m.roster.AtFront (.name "preflight") → left req = b) ∧
      (¬ m.roster.AtFront (.name "preflight") → left req = { b with preflight := some duration })) ∧
    ∀ o : Order, let r := (m.perform (.order o)).mission.roster
      r = m.roster ∨ ∃ id x, id ∈ m.roster.standby ∧ m.roster.task? id = some x ∧
        r.stack = id :: m.roster.stack ∧
        r.task? id = some { x with phase := .active, elapsed := 0 } ∧
        ∀ j ≠ id, r.task? j = m.roster.task? j := by
  intro b left
  have hLeft : ∀ req, left req = req.publish m.roster b := board_perform m
  refine ⟨board_perform_keeps m, ?_, fun name => hLeft _, fun target => hLeft _, ?_, ?_,
    board_preflight m, ?_⟩
  · intro c hc
    simp only [List.mem_cons, List.not_mem_nil, or_false] at hc
    rw [hLeft]
    rcases hc with rfl | rfl | rfl | rfl | rfl | rfl | rfl <;> rfl
  · intro heading
    exact board_of_pushing (o := .land heading) (fun _ => rfl) rfl rfl
  · intro d
    exact board_of_pushing (o := .descent d) (fun _ => rfl) rfl rfl
  · intro o
    obtain hKept | ⟨id, x, hFirst, hTask, hStack, hRaised, hOther⟩ := roster_order_cases m o
    · exact .inl hKept
    · exact .inr ⟨id, x, hFirst.mem, hTask, hStack, hRaised, hOther⟩

/-- A landing into the wind, and one on another heading that comes too late; a preflight without a task. -/
theorem request_writes_landing :
    let p : Plan := { sequence := [{ name := "route" }], standby := [{ name := "land" }] }
    let m := (launch p { wind := 270 }).mission
    let landing := (m.perform (Command.land none).request).mission
    m.Grows (Command.land none).request ∧ landing.board = { m.board with landing := some 270 } ∧
      ¬ landing.Grows (Command.land (some 90)).request ∧
      (landing.perform (Command.land (some 90)).request).mission.board = landing.board ∧
      (m.perform (Command.preflight 30).request).mission.board =
        { m.board with preflight := some 30 } := by
  intro p m landing
  have hPush : m.Grows (Command.land none).request := by
    unfold Grows
    decide +kernel
  have hLate : ¬ landing.Grows (Command.land (some 90)).request := by
    unfold Grows
    decide +kernel
  have hFront : ¬ m.roster.AtFront (.name "preflight") := by
    rw [atFront_iff]
    decide +kernel
  obtain ⟨-, -, -, -, hLand, -, hPreflight, -⟩ := request_writes m
  obtain ⟨-, -, -, -, hLandAgain, -⟩ := request_writes landing
  exact ⟨hPush, (hLand none).1 hPush, hLate, (hLandAgain (some 90)).2 hLate, (hPreflight 30).2 hFront⟩

end Mission

end Sortie
