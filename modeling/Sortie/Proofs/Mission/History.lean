import Sortie.Proofs.Mission.Stages
import Sortie.Proofs.Mission.Launch

/-!
# Runs as sequences of moves

Every operation, and so every run, changes the roster by moves. What it puts on
the stack on the way is read off the missions that it passes through.
-/

namespace Sortie.Mission

/-- The mission that a plan leads to when it is launched over a board and operated. -/
def after (p : Plan) (b : Board) (ops : List Op) : Mission :=
  ((launch p b).andThen (run ops)).mission

def pushes (m : Mission) : Op → List TaskId
  | .process => m.commandPushes
  | .request req => req.pushes m.roster
  | .tick dt => m.commandPushes ++ (m.untilFallBack dt).mission.fallBackPushes
  | _ => []

def runPushes : List Op → Mission → List TaskId
  | [], _ => []
  | op :: ops, m => m.pushes op ++ runPushes ops (m.apply op).mission

variable {p : Plan} {b : Board} {m : Mission}

theorem apply_moves (hSound : m.roster.Sound) (op : Op) :
    m.roster.Moves (m.pushes op) (m.apply op).report.calls (m.apply op).mission.roster := by
  cases op with
  | submit | position | wind | preflight => exact .nil m.roster
  | process => exact m.processCommand_turn.moves
  | request req => exact (m.perform_turn req).moves
  | tick dt => exact m.tick_moves dt hSound

theorem run_moves (hSound : m.roster.Sound) (ops : List Op) :
    m.roster.Moves (m.runPushes ops) (m.run ops).report.calls (m.run ops).mission.roster := by
  induction ops generalizing m with
  | nil => exact .nil m.roster
  | cons op ops ih =>
    have hOp := apply_moves hSound op
    exact hOp.trans (ih (hOp.sound hSound))

theorem after_moves (p : Plan) (b : Board) (ops : List Op) :
    (launch p b).mission.roster.Moves ((launch p b).mission.runPushes ops)
      ((launch p b).mission.run ops).report.calls (after p b ops).roster :=
  run_moves (sound_launch p b) ops

theorem sound_after (p : Plan) (b : Board) (ops : List Op) : (after p b ops).roster.Sound :=
  (after_moves p b ops).sound (sound_launch p b)

theorem after_akin (p : Plan) (b : Board) (ops : List Op) : p.roster.Akin (after p b ops).roster :=
  (launch_akin p b).trans (after_moves p b ops).akin

theorem profiles_after (p : Plan) (b : Board) (ops : List Op) (g : Group) :
    (p.ids g).map (fun id => ((after p b ops).roster.task? id).map Task.profile) =
      (p.accepted g).map fun x => some x.profile := by
  have hProfiles := congrArg (List.map (Option.map Task.profile)) (p.map_task?_ids g)
  rw [List.map_map, List.map_map] at hProfiles
  refine Eq.trans ?_ hProfiles
  exact List.map_congr_left fun id _ => (after_akin p b ops).profile id

theorem run_append (xs ys : List Op) :
    (m.run (xs ++ ys)).mission = ((m.run xs).mission.run ys).mission := by
  induction xs generalizing m with
  | nil => rfl
  | cons x xs ih => exact ih

theorem after_append (xs ys : List Op) :
    after p b (xs ++ ys) = ((after p b xs).run ys).mission :=
  run_append xs ys

end Sortie.Mission
