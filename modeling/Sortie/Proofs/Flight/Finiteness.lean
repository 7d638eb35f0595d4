import Sortie.Proofs.Command.Grammar
import Sortie.Proofs.Flight.Mailbox

/-!
# Numbers that reach the board

Over a flight the parameters of the tasks come from two sources only. What a text
says is finite, as no text with another number is a command, and what a text leaves
out is read off the vehicle as it was published in the step that carries it out.
-/

namespace Sortie

def GeoPoint.IsFinite (p : GeoPoint) : Prop := p.lon.isFinite ∧ p.lat.isFinite

namespace Command

def IsFinite : Command → Prop
  | circle (some p) => p.IsFinite
  | land (some x) => x.isFinite
  | preflight x => x.isFinite
  | _ => True

theorem Phrase.isFinite {words : List String} {c : Command} (h : Phrase words c) : c.IsFinite := by
  cases h with
  | circle hLon hLat => exact ⟨hLon.2, hLat.2⟩
  | land hHeading => exact hHeading.2
  | preflight hDuration => exact hDuration.2
  | _ => trivial

theorem isFinite_of_parse {text : String} {c : Command} (h : parse text = .ok c) : c.IsFinite :=
  (sentence_iff.mp (parse_eq_ok_iff.mp h)).isFinite

end Command

namespace Board

/--
The parameters of the tasks are finite or were published by a vehicle, and nothing
is set that only a descent sets.
-/
structure Sourced (seen : List Vehicle) (b : Board) : Prop where
  center : b.circle.target.IsFinite ∨ ∃ v ∈ seen, b.circle.target = v.position
  landing : ∀ x ∈ b.landing, x.isFinite ∨ ∃ v ∈ seen, x = v.wind
  preflight : ∀ x ∈ b.preflight, x.isFinite
  shape : b.circle = { target := b.circle.target }

namespace Sourced

variable {seen more : List Vehicle} {b b' : Board} {c : Command} {r : Roster}

theorem congr (h : b.Sourced seen) (hCircle : b'.circle = b.circle)
    (hLanding : b'.landing = b.landing) (hPreflight : b'.preflight = b.preflight) :
    b'.Sourced seen where
  center := hCircle ▸ h.center
  landing := hLanding ▸ h.landing
  preflight := hPreflight ▸ h.preflight
  shape := hCircle ▸ h.shape

theorem mono (h : b.Sourced seen) (hSeen : seen ⊆ more) : b.Sourced more where
  center := h.center.imp_right fun ⟨v, hv, hEq⟩ => ⟨v, hSeen hv, hEq⟩
  landing x hx := (h.landing x hx).imp_right fun ⟨v, hv, hEq⟩ => ⟨v, hSeen hv, hEq⟩
  preflight := h.preflight
  shape := h.shape

theorem setCircleTarget (h : b.Sourced seen) {p : GeoPoint}
    (hp : p.IsFinite ∨ ∃ v ∈ seen, p = v.position) : (b.setCircleTarget p).Sourced seen where
  center := hp
  landing := h.landing
  preflight := h.preflight
  shape := by
    rw [Board.setCircleTarget, h.shape]

theorem setLanding (h : b.Sourced seen) {x : Float32}
    (hx : x.isFinite ∨ ∃ v ∈ seen, x = v.wind) : (b.setLanding x).Sourced seen where
  center := h.center
  landing _ hy := Option.some.inj hy ▸ hx
  preflight := h.preflight
  shape := h.shape

theorem setPreflight (h : b.Sourced seen) {x : Float32} (hx : x.isFinite) :
    (b.setPreflight x).Sourced seen where
  center := h.center
  landing := h.landing
  preflight _ hy := Option.some.inj hy ▸ hx
  shape := h.shape

/-- A command writes its own numbers, or what the vehicle says now. -/
theorem publish (h : b.Sourced seen) (hFinite : c.IsFinite)
    (hNow : ∃ v ∈ seen, b.position = v.position ∧ b.wind = v.wind) :
    (c.request.publish r b).Sourced seen := by
  obtain ⟨v, hv, hPosition, hWind⟩ := hNow
  cases c with
  | home | idle | calibrate | route | parametric =>
    simp only [Command.request, Request.publish]
    generalize r.seek _ = w
    cases w <;> exact h
  | resume | pop => exact h
  | circle target =>
    cases target with
    | none => exact h.setCircleTarget (.inr ⟨v, hv, hPosition⟩)
    | some p => exact h.setCircleTarget (.inl hFinite)
  | land heading =>
    simp only [Command.request, Request.publish]
    cases r.seek (Order.land heading).target with
    | atFront | nowhere => exact h
    | standby id =>
      cases heading with
      | none => exact h.setLanding (.inr ⟨v, hv, hWind⟩)
      | some x => exact h.setLanding (.inl hFinite)
  | preflight duration =>
    simp only [Command.request, Request.publish]
    cases r.seek (Order.preflight duration).target with
    | atFront => exact h
    | standby | nowhere => exact h.setPreflight hFinite

end Sourced

end Board

namespace Mission

variable {m : Mission} {seen : List Vehicle}

theorem sourced_processCommand (h : m.board.Sourced seen)
    (hNow : ∃ v ∈ seen, m.board.position = v.position ∧ m.board.wind = v.wind) :
    m.processCommand.mission.board.Sourced seen := by
  rcases m.command_cases with hText | ⟨c, hParse⟩ | ⟨hText, e, hParse⟩
  · rwa [processCommand_of_nil hText, mission_stay]
  · have hCleared : m.board.clearRequest.Sourced seen := h.congr rfl rfl rfl
    rw [processCommand_of_ok hParse]
    exact (hCleared.publish (Command.isFinite_of_parse hParse) hNow).congr rfl rfl rfl
  · rw [processCommand_of_error hText hParse]
    exact h.congr rfl rfl rfl

theorem sourced_tick (h : m.board.Sourced seen)
    (hNow : ∃ v ∈ seen, m.board.position = v.position ∧ m.board.wind = v.wind) (dt : Float32) :
    (m.tick dt).mission.board.Sourced seen := by
  rw [board_tick]
  exact (sourced_processCommand h hNow).congr rfl rfl rfl

end Mission

namespace Flight

variable {seen : List Vehicle} {f : Flight}

def published : List Op → Flight → List Vehicle
  | [], _ => []
  | .step dt :: ops, f => f.vehicle.step dt :: published ops (f.step dt).1
  | op :: ops, f => published ops (f.apply op).1

theorem sourced_step (h : f.mission.board.Sourced seen) (dt : Float32) :
    (f.step dt).1.mission.board.Sourced (seen ++ [f.vehicle.step dt]) := by
  -- the vehicle is published before the command is processed, which so reads the new one
  have hBoard : ((f.vehicle.step dt).publish f.mission.board).Sourced
      (seen ++ [f.vehicle.step dt]) :=
    (h.mono (List.subset_append_left _ _)).congr rfl rfl rfl
  rw [mission_step]
  exact Mission.sourced_tick hBoard ⟨f.vehicle.step dt, by simp, rfl, rfl⟩ dt

theorem sourced_submit (h : f.mission.board.Sourced seen) (line : String) :
    (f.apply (.submit line)).1.mission.board.Sourced seen := by
  rw [apply]
  by_cases hLine : (Text.trim line).utf8ByteSize ≤ maxCommandBytes
  · rw [submit_of_le hLine]
    exact h.congr rfl rfl rfl
  · rw [submit_of_lt (Nat.lt_of_not_le hLine)]
    exact h

theorem sourced_run (h : f.mission.board.Sourced seen) (ops : List Op) :
    (f.run ops).1.mission.board.Sourced (seen ++ published ops f) := by
  induction ops generalizing f seen with
  | nil =>
    rw [published, List.append_nil]
    exact h
  | cons op ops ih =>
    cases op with
    | submit line => exact ih (sourced_submit h line)
    | step dt =>
      rw [published, List.append_cons]
      exact ih (sourced_step h dt)
    | steer v => exact ih (f := (f.apply (.steer v)).1) h

theorem isFinite_origin : ({} : GeoPoint).IsFinite := by
  constructor <;> decide +kernel

theorem sourced_start (p : Plan) (v : Vehicle) : (start p v).1.mission.board.Sourced [] := by
  have hBoard : (start p v).1.mission.board = v.publish {} := Mission.board_launch p (v.publish {})
  rw [hBoard]
  exact {
    center := .inl isFinite_origin
    landing := by simp [Vehicle.publish]
    preflight := by simp [Vehicle.publish]
    shape := rfl }

/--
Whatever is submitted over a flight, the preflight duration is finite, the center
of the orbit and the landing heading are finite or were published by the vehicle
in a step, and nothing else is set. So if the vehicle publishes finite values only,
all of them are finite.
-/
theorem finite_on_board (p : Plan) (v : Vehicle) (ops : List Op) :
    let f := (start p v).1
    let seen := published ops f
    let b := (f.run ops).1.mission.board
    (b.circle.target.IsFinite ∨ ∃ w ∈ seen, b.circle.target = w.position) ∧
    (∀ x ∈ b.landing, x.isFinite ∨ ∃ w ∈ seen, x = w.wind) ∧
    (∀ x ∈ b.preflight, x.isFinite) ∧
    b.circle.radius = none ∧ b.circle.direction = none ∧
    b.circle.exitAgl = none ∧ b.circle.exitHeading = none ∧
    ((∀ w ∈ seen, w.position.IsFinite ∧ w.wind.isFinite) →
      b.circle.target.IsFinite ∧ ∀ x ∈ b.landing, x.isFinite) := by
  intro f seen b
  have hBoard : b.Sourced seen := sourced_run (sourced_start p v) ops
  obtain ⟨hCenter, hLanding, hPreflight, hShape⟩ := hBoard
  refine ⟨hCenter, hLanding, hPreflight, ?_, ?_, ?_, ?_, fun hFinite => ⟨?_, fun x hx => ?_⟩⟩
  · rw [hShape]
  · rw [hShape]
  · rw [hShape]
  · rw [hShape]
  · rcases hCenter with hCenter | ⟨w, hw, hEq⟩
    · exact hCenter
    · rw [hEq]
      exact (hFinite w hw).1
  · rcases hLanding x hx with hLanding | ⟨w, hw, rfl⟩
    · exact hLanding
    · exact (hFinite w hw).2

/-- A duration that is too large for its type is no duration. -/
example :
    let f := (start { standby := [{ name := "preflight" }] } { position := {}, wind := 0 }).1
    let after := fun text => (f.run [.submit text, .step 1]).1.mission.board.preflight
    after "preflight,1e38" = some 1e38 ∧ after "preflight,1e39" = none ∧
      after "preflight,NaN" = none := by
  decide +kernel

end Flight

end Sortie
