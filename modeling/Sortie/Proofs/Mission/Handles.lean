import Sortie.Proofs.Roster.Access
import Sortie.Proofs.Mission.History

/-!
# Handles

All actions of a mission once more, with strict access to the tasks: an action ends at
the first handle that leads to no task. No mission that was launched from a plan comes
to such a handle, whatever is done with it. What the plan has fixed stays as it is.
-/

namespace Sortie

theorem Roster.Akin.map_profile {r s : Roster} (h : r.Akin s) :
    s.tasks.map Task.profile = r.tasks.map Task.profile := by
  apply List.ext_getElem?
  intro id
  rw [List.getElem?_map, List.getElem?_map]
  exact h.profile id

namespace Mission

namespace Strict

open Roster.Strict (task modify frontTask? seek)

def andThen (o : Access Outcome) (f : Mission → Access Outcome) : Access Outcome := do
  let first ← o
  let second ← f first.mission
  return ⟨second.mission, first.report ++ second.report⟩

def call (id : TaskId) (hook : Hook) (f : Task → Task) (m : Mission) : Access Outcome := do
  let r ← modify id f m.roster
  return ⟨m.arrange fun _ => r, .call id hook⟩

def activate (id : TaskId) : Mission → Access Outcome :=
  call id .activate Task.activate

def update (dt : Float32) (id : TaskId) (m : Mission) : Access Outcome :=
  call id .update (Task.update dt m.board.preflight) m

def push (id : TaskId) (m : Mission) : Access Outcome :=
  activate id (m.arrange (·.push id))

def pop (m : Mission) : Access Outcome :=
  match m.roster.stack with
  | [] => return m.stay
  | id :: _ => do
    let r ← Roster.Strict.pop m.roster
    return ⟨m.arrange fun _ => r, .call id .close⟩

def engage (t : Target) (w : Whereabouts) (m : Mission) : Access Outcome :=
  match w with
  | .atFront => return m.stay
  | .standby id => push id m
  | .nowhere => return m.emit (.missing t)

def order (o : Order) (m : Mission) : Access Outcome := do
  let w ← seek o.target m.roster
  engage o.target w (m.write (o.publish w))

def resume (m : Mission) : Access Outcome := do
  let front ← frontTask? m.roster
  if front.any (·.name ∈ resumable) then pop m else return m.stay

def perform : Request → Mission → Access Outcome
  | .order o => order o
  | .resume => resume
  | .pop => pop

def execute (text : String) (m : Mission) : Access Outcome :=
  match Command.parse text with
  | .ok c =>
    andThen (andThen (return m.emit (.accepted text)) (perform c.request)) fun m =>
      return (m.write (·.setResult (successText text))).stay
  | .error e =>
    andThen (return m.emit (.refused e text)) fun m =>
      return (m.write (·.setResult (failureText text))).stay

def processCommand (m : Mission) : Access Outcome :=
  if m.board.request = "" then return m.stay
  else execute m.board.request (m.write Board.clearRequest)

def updateAll (dt : Float32) : List TaskId → Mission → Access Outcome
  | [], m => return m.stay
  | id :: ids, m => andThen (update dt id m) (updateAll dt ids)

def handOver (m : Mission) : Access Outcome :=
  match m.roster.front? with
  | none => return m.stay
  | some id => andThen (activate id m) fun m => do
    let x ← task id m.roster
    return m.emit (.next x.name)

def retireFront (id : TaskId) (m : Mission) : Access Outcome :=
  andThen (return ⟨m, .call id .isComplete⟩) fun m => do
    let x ← task id m.roster
    if x.isComplete then andThen (andThen (return m.emit (.finished x.name)) pop) handOver
    else return m.stay

def wake (id : TaskId) (m : Mission) : Access Outcome := do
  let x ← task id m.roster
  if x.phase = .inactive then activate id m else return m.stay

def driveFront (dt : Float32) (m : Mission) : Access Outcome :=
  match m.roster.front? with
  | none => return m.stay
  | some id => do
    let x ← task id m.roster
    andThen (andThen (wake id (m.write (·.setCurrent x.name))) (update dt id)) (retireFront id)

def fallBack (m : Mission) : Access Outcome :=
  if m.roster.stack = [] then order .idle m else return m.stay

def tick (dt : Float32) (m : Mission) : Access Outcome :=
  andThen (andThen (andThen (processCommand m) fun m => updateAll dt m.roster.globals m)
    (driveFront dt)) fallBack

/-- Only the processing of commands, requests and ticks look at tasks. -/
def apply (m : Mission) : Op → Access Outcome
  | .process => processCommand m
  | .request r => perform r m
  | .tick dt => tick dt m
  | op => return m.apply op

def run : List Op → Mission → Access Outcome
  | [], m => return m.stay
  | op :: ops, m => andThen (apply m op) (run ops)

def activateAll : List TaskId → Mission → Access Outcome
  | [], m => return m.stay
  | id :: ids, m => andThen (activate id m) (activateAll ids)

def launch (p : Plan) (b : Board) : Access Outcome :=
  andThen (andThen (return muster p Group.all { board := b }) fun m =>
    activateAll m.roster.globals m) fun m => activateAll m.roster.front?.toList m

variable {m : Mission} {id : TaskId} {x : Task} {dt : Float32}

theorem andThen_eq {o : Access Outcome} {a : Outcome} {f : Mission → Access Outcome}
    {g : Mission → Outcome} (ho : o = .ok a) (hf : f a.mission = .ok (g a.mission)) :
    andThen o f = .ok (a.andThen g) := by
  rw [andThen, Access.bind_eq ho]
  exact Access.bind_eq hf _

theorem call_eq (h : id < m.roster.size) (hook : Hook) (f : Task → Task) :
    call id hook f m = .ok ⟨m.arrange (·.modify id f), .call id hook⟩ :=
  Access.bind_eq (Roster.Strict.modify_eq h) _

theorem activate_eq (h : id < m.roster.size) : activate id m = .ok (m.activate id) :=
  call_eq h _ _

theorem update_eq (h : id < m.roster.size) : update dt id m = .ok (m.update dt id) :=
  call_eq h _ _

theorem pop_eq (h : m.roster.Valid) : pop m = .ok m.pop := by
  rw [pop.eq_def, Mission.pop]
  cases m.roster.stack with
  | nil => rfl
  | cons id rest => exact Access.bind_eq (Roster.Strict.pop_eq h) _

theorem engage_eq (h : m.roster.Valid) (t : Target) :
    engage t (m.roster.seek t) m = .ok (m.engage t) := by
  rw [engage.eq_def, Mission.engage]
  cases hSeek : m.roster.seek t with
  | atFront => rfl
  | standby id => exact activate_eq (h.standby id (Roster.mem_standby_of_seek hSeek))
  | nowhere => rfl

theorem order_eq (h : m.roster.Valid) (o : Order) : order o m = .ok (m.order o) := by
  rw [order, Access.bind_eq (Roster.Strict.seek_eq h o.target)]
  exact engage_eq (m := m.write (o.publish (m.roster.seek o.target))) h o.target

theorem resume_eq (h : m.roster.Valid) : resume m = .ok m.resume := by
  rw [resume, Access.bind_eq (Roster.Strict.frontTask?_eq h), Mission.resume]
  split
  · exact pop_eq h
  · rfl

theorem perform_eq (h : m.roster.Valid) (req : Request) : perform req m = .ok (m.perform req) := by
  cases req with
  | order o => exact order_eq h o
  | resume => exact resume_eq h
  | pop => exact pop_eq h

theorem execute_eq (h : m.roster.Valid) (text : String) : execute text m = .ok (m.execute text) := by
  rw [execute, Mission.execute]
  cases Command.parse text with
  | ok c => exact andThen_eq (andThen_eq rfl (perform_eq h c.request)) rfl
  | error e => exact andThen_eq rfl rfl

theorem processCommand_eq (h : m.roster.Valid) : processCommand m = .ok m.processCommand := by
  rw [processCommand, Mission.processCommand]
  split
  · rfl
  · exact execute_eq (m := m.write Board.clearRequest) h _

theorem updateAll_eq {ids : List TaskId} (h : ∀ id ∈ ids, id < m.roster.size) :
    updateAll dt ids m = .ok (m.updateAll dt ids) := by
  induction ids generalizing m with
  | nil => rfl
  | cons id ids ih =>
    refine andThen_eq (update_eq (h id List.mem_cons_self)) (ih fun j hj => ?_)
    rw [Mission.update, roster_arrange, Roster.size_modify]
    exact h j (List.mem_cons_of_mem _ hj)

theorem activateAll_eq {ids : List TaskId} (h : ∀ id ∈ ids, id < m.roster.size) :
    activateAll ids m = .ok (m.activateAll ids) := by
  induction ids generalizing m with
  | nil => rfl
  | cons id ids ih =>
    refine andThen_eq (activate_eq (h id List.mem_cons_self)) (ih fun j hj => ?_)
    rw [Mission.activate, roster_arrange, Roster.size_modify]
    exact h j (List.mem_cons_of_mem _ hj)

theorem handOver_eq (h : m.roster.Valid) : handOver m = .ok m.handOver := by
  rw [handOver, Mission.handOver]
  cases hFront : m.roster.front? with
  | none => rfl
  | some id =>
    have hId := h.front_lt hFront
    refine andThen_eq (activate_eq hId) ?_
    obtain ⟨x, hx, hTask⟩ := Roster.Strict.exists_task_eq (r := (m.activate id).mission.roster)
      (by rwa [Mission.activate, roster_arrange, Roster.size_modify])
    rw [Access.bind_eq hTask, hx]
    rfl

theorem valid_pop (h : m.roster.Valid) : m.pop.mission.roster.Valid := by
  rw [Mission.pop]
  split
  · exact h
  · exact h.pop

theorem retireFront_eq (h : m.roster.Valid) (hId : id < m.roster.size) :
    retireFront id m = .ok (m.retireFront id) := by
  obtain ⟨x, hx, hTask⟩ := Roster.Strict.exists_task_eq hId
  refine andThen_eq rfl ?_
  rw [Access.bind_eq hTask, hx]
  dsimp only
  split
  · exact andThen_eq (andThen_eq rfl (pop_eq h)) (handOver_eq (valid_pop h))
  · rfl

theorem wake_eq (hId : id < m.roster.size) : wake id m = .ok (m.wake id) := by
  obtain ⟨x, hx, hTask⟩ := Roster.Strict.exists_task_eq hId
  rw [wake, Access.bind_eq hTask, Mission.wake, hx]
  by_cases hPhase : x.phase = .inactive
  · rw [if_pos hPhase, if_pos (by simp [hPhase])]
    exact activate_eq hId
  · rw [if_neg hPhase, if_neg (by simp [hPhase])]
    rfl

theorem size_wake (m : Mission) (id : TaskId) : (m.wake id).mission.roster.size = m.roster.size := by
  rw [Mission.wake]
  split
  · exact Roster.size_modify _ _ _
  · rfl

theorem valid_wake (h : m.roster.Valid) : (m.wake id).mission.roster.Valid := by
  rw [Mission.wake]
  split
  · exact h.modify id Task.activate
  · exact h

theorem driveFront_eq (h : m.roster.Valid) : driveFront dt m = .ok (m.driveFront dt) := by
  rw [driveFront, Mission.driveFront]
  cases hFront : m.roster.front? with
  | none => rfl
  | some id =>
    have hId := h.front_lt hFront
    obtain ⟨x, hx, hTask⟩ := Roster.Strict.exists_task_eq hId
    dsimp only
    rw [Access.bind_eq hTask, hx, Option.map_some, Option.getD_some]
    have hWoken := size_wake (m.write (·.setCurrent x.name)) id
    refine andThen_eq (andThen_eq (wake_eq hId) (update_eq ?_)) (retireFront_eq ?_ ?_)
    · rwa [hWoken]
    · exact (valid_wake (m := m.write _) h).modify id _
    · rw [Outcome.mission_andThen, Mission.update, roster_arrange, Roster.size_modify, hWoken]
      exact hId

theorem fallBack_eq (h : m.roster.Valid) : fallBack m = .ok m.fallBack := by
  rw [fallBack, Mission.fallBack]
  split
  · exact order_eq h .idle
  · rfl

theorem tick_eq (hSound : m.roster.Sound) (dt : Float32) : tick dt m = .ok (m.tick dt) := by
  have hProcessed := (m.processCommand_turn.moves.sound hSound).valid
  have hFront := ((m.untilFront_moves dt).sound hSound).valid
  have hFallBack := ((m.untilFallBack_moves dt hSound).sound hSound).valid
  refine andThen_eq (andThen_eq (andThen_eq ?_ ?_) ?_) ?_
  · exact processCommand_eq hSound.valid
  · exact updateAll_eq hProcessed.globals
  · exact driveFront_eq hFront
  · exact fallBack_eq hFallBack

theorem apply_eq (hSound : m.roster.Sound) (op : Op) : apply m op = .ok (m.apply op) := by
  cases op with
  | submit | position | wind | preflight => rfl
  | process => exact processCommand_eq hSound.valid
  | request req => exact perform_eq hSound.valid req
  | tick dt => exact tick_eq hSound dt

theorem run_eq (hSound : m.roster.Sound) (ops : List Op) : run ops m = .ok (m.run ops) := by
  induction ops generalizing m with
  | nil => rfl
  | cons op ops ih =>
    exact andThen_eq (apply_eq hSound op) (ih ((apply_moves hSound op).sound hSound))

theorem launch_eq (p : Plan) (b : Board) : launch p b = .ok (Mission.launch p b) := by
  have hMustered : (muster p Group.all { board := b }).mission.roster.Sound := by
    rw [roster_muster]
    exact Plan.sound_roster
  refine andThen_eq (andThen_eq rfl (activateAll_eq hMustered.valid.globals)) ?_
  refine activateAll_eq fun id hId => Roster.Valid.front_lt ?_ (Option.mem_toList.mp hId)
  refine (hMustered.of_akin (activateAll_akin _ _) fun j hj => ?_).valid
  rw [stack_activateAll] at hj
  exact .inr hj

/-- A handle that leads nowhere does stop a strict tick. -/
example : tick 1 { roster := { stack := [7] } } = .error 7 := rfl

end Strict

/--
Whatever the plan and whatever has happened since the launch, every handle is the
position of a task. Read strictly, the launch, all operations and every search come to
their ends, and to the same ones. The number of the tasks, the global tasks, the catalog,
and all that the plan fixes about a task are what they were after the launch.
-/
theorem handles_valid (p : Plan) (b : Board) (ops : List Op) :
    let r₀ := (launch p b).mission.roster
    let r := (after p b ops).roster
    let fixed := fun x : Task => (x.name, x.nickname, x.profile.kind, x.profile.duration)
    (∀ id, id ∈ r.globals ∨ id ∈ r.standby ∨ id ∈ r.stack → id < r.size) ∧
    Strict.andThen (Strict.launch p b) (Strict.run ops) = .ok ((launch p b).andThen (run ops)) ∧
    (∀ ids ∈ [r.globals, r.standby, r.stack], ∀ test,
      Roster.Strict.firstMatch test r ids = .ok (r.firstMatch ids test)) ∧
    r.size = r₀.size ∧ r.globals = r₀.globals ∧ r.standby = r₀.standby ∧
    r.tasks.map fixed = r₀.tasks.map fixed := by
  intro r₀ r fixed
  have hSound : r.Sound := sound_after p b ops
  have hAkin : r₀.Akin r := (after_moves p b ops).akin
  refine ⟨hSound.lt_size, ?_, fun ids hIds test => ?_, hAkin.size, hAkin.globals, hAkin.standby, ?_⟩
  · exact Strict.andThen_eq (Strict.launch_eq p b) (Strict.run_eq (sound_launch p b) ops)
  · refine Roster.Strict.firstMatch_eq (fun id hId => hSound.lt_size id ?_) test
    simp only [List.mem_cons, List.not_mem_nil, or_false] at hIds
    rcases hIds with rfl | rfl | rfl
    · exact .inl hId
    · exact .inr (.inl hId)
    · exact .inr (.inr hId)
  · have hFixed := congrArg
      (List.map fun q : Profile => (q.name, q.nickname, q.kind, q.duration)) hAkin.map_profile
    rwa [List.map_map, List.map_map] at hFixed

end Mission

end Sortie
