import Mathlib.Data.List.Count
import Sortie.Proofs.Mission.Reports

/-!
# The balance of the stack

What is closed is what is taken off the stack, entry by entry: an operation puts
tasks on the stack, closes entries from its front on, and falls back to the idle
task. A task is closed because it is finished, or by a request to pop or to
resume, and for no other reason.
-/

namespace Sortie

def closed (cs : List Call) : List TaskId := (cs.filter (·.hook = .close)).map Call.id

def Event.isFinished : Event → Bool
  | .finished _ => true
  | _ => false

section

variable {cs ds : List Call} {es : List Event} {id : TaskId}

theorem closed_append : closed (cs ++ ds) = closed cs ++ closed ds := by
  rw [closed, List.filter_append, List.map_append]
  rfl

theorem closed_eq_nil (h : ∀ c ∈ cs, c.hook ≠ .close) : closed cs = [] := by
  rw [closed, List.map_eq_nil_iff, List.filter_eq_nil_iff]
  intro c hc
  simpa using h c hc

theorem length_closed (cs : List Call) : (closed cs).length = cs.countP (·.hook = .close) := by
  rw [closed, List.length_map, List.countP_eq_length_filter]

theorem count_closed (cs : List Call) : (closed cs).count id = cs.count ⟨id, .close⟩ := by
  induction cs with
  | nil => rfl
  | cons c cs ih =>
    rw [← List.singleton_append, closed_append, List.count_append, List.count_append, ih]
    obtain ⟨j, hook⟩ := c
    by_cases hHook : hook = .close
    · simp [closed, hHook, List.count_singleton]
    · simp [closed, hHook]

theorem countP_isFinished (h : ∀ e ∈ es, e.category ≠ .mission) : es.countP Event.isFinished = 0 := by
  rw [List.countP_eq_zero]
  intro e he
  cases e with
  | finished name => exact absurd rfl (h _ he)
  | _ => simp [Event.isFinished]

@[simp] theorem closed_driveCalls (x : Task) : closed (x.driveCalls id) = [] := by
  rw [Task.driveCalls]
  split <;> rfl

end

namespace Roster

variable {r s : Roster} {ps : List TaskId} {cs : List Call} {dt : Float32}
  {commanded : Option Float32} {report : Report}

theorem Turn.stack_eq (h : r.Turn ps cs s) : ps ++ r.stack = closed cs ++ s.stack := by
  cases h with
  | keep | push => rfl
  | pop hStack =>
    rw [stack_pop_of_eq r _ hStack]
    exact hStack

theorem Drive.stack_eq (h : r.Drive dt commanded report s) : r.stack = closed report.calls ++ s.stack := by
  cases h with
  | absent => rfl
  | goesOn => simp
  | ends hStack | handsOver hStack =>
    simp only [closed_append, closed_driveCalls, stack_modify, stack_pop, hStack]
    rfl

theorem Drive.countP_isFinished (h : r.Drive dt commanded report s) :
    report.events.countP Event.isFinished = (closed report.calls).length := by
  cases h with
  | absent => rfl
  | goesOn => simp
  | ends | handsOver =>
    rw [closed_append, closed_driveCalls]
    rfl

end Roster

namespace Request

def pops (r : Roster) : Request → Bool
  | .pop => r.stack ≠ []
  | _ => false

def resumes (r : Roster) : Request → Bool
  | .resume => r.frontTask?.any fun x => x.name = "circle-coord" ∨ x.name = "land"
  | _ => false

end Request

namespace Mission

open Roster

variable {m : Mission}

def carried (m : Mission) : Op → Option Request
  | .request req => some req
  | .process | .tick _ => m.pending?
  | _ => none

/-- The requests that are carried out in a run, each with the roster that it finds. -/
def carriedOut : List Op → Mission → List (Roster × Request)
  | [], _ => []
  | op :: ops, m => (m.carried op).toList.map (m.roster, ·) ++ carriedOut ops (m.apply op).mission

/-! ## Entry by entry -/

theorem closed_tick (m : Mission) (dt : Float32) :
    closed (m.tick dt).report.calls = closed m.processCommand.report.calls ++
      closed ((m.untilFront dt).mission.driveFront dt).report.calls := by
  -- the round of the global tasks and the fallback close nothing
  have hRound : ∀ {hook : Hook} (ids : List TaskId), hook ≠ .close →
      closed (ids.map fun id => ⟨id, hook⟩) = [] := by
    intro hook ids hHook
    exact closed_eq_nil (by simp [hHook])
  rw [calls_tick, closed_append, closed_append, closed_append, hRound _ (by simp),
    hRound _ (by simp), List.append_nil, List.append_nil]

theorem tick_stack (hSound : m.roster.Sound) (dt : Float32) :
    ∃ left, m.commandPushes ++ m.roster.stack = closed (m.tick dt).report.calls ++ left ∧
      (m.tick dt).mission.roster.stack = (m.untilFallBack dt).mission.fallBackPushes ++ left := by
  refine ⟨(m.untilFallBack dt).mission.roster.stack, ?_, stack_fallBack _⟩
  have hDrive := (m.untilFallBack_drive dt hSound).stack_eq
  rw [stack_untilFront] at hDrive
  rw [closed_tick, m.processCommand_turn.stack_eq, hDrive, List.append_assoc]

/-- The entries that an operation takes off are those that it closes, in order. -/
theorem apply_stack (hSound : m.roster.Sound) (op : Op) :
    ∃ early late left, m.pushes op = early ++ late ∧
      early ++ m.roster.stack = closed (m.apply op).report.calls ++ left ∧
      (m.apply op).mission.roster.stack = late ++ left := by
  cases op with
  | submit | position | wind | preflight => exact ⟨[], [], m.roster.stack, rfl, rfl, rfl⟩
  | process =>
    exact ⟨m.commandPushes, [], _, (List.append_nil _).symm, m.processCommand_turn.stack_eq, rfl⟩
  | request req =>
    exact ⟨req.pushes m.roster, [], _, (List.append_nil _).symm, (m.perform_turn req).stack_eq, rfl⟩
  | tick dt =>
    obtain ⟨left, hClosed, hStack⟩ := tick_stack hSound dt
    exact ⟨m.commandPushes, _, left, rfl, hClosed, hStack⟩

theorem count_apply (hSound : m.roster.Sound) (op : Op) (id : TaskId) :
    m.roster.stack.count id + (m.pushes op).count id =
      (m.apply op).mission.roster.stack.count id + (m.apply op).report.calls.count ⟨id, .close⟩ := by
  obtain ⟨early, late, left, hPushes, hClosed, hStack⟩ := apply_stack hSound op
  have hCount := congrArg (List.count id) hClosed
  rw [List.count_append, List.count_append, count_closed] at hCount
  rw [hPushes, hStack, List.count_append, List.count_append]
  omega

theorem count_run (hSound : m.roster.Sound) (ops : List Op) (id : TaskId) :
    m.roster.stack.count id + (m.runPushes ops).count id =
      (m.run ops).mission.roster.stack.count id + (m.run ops).report.calls.count ⟨id, .close⟩ := by
  induction ops generalizing m with
  | nil => rfl
  | cons op ops ih =>
    have hOp := count_apply hSound op id
    have hRest := ih ((apply_moves hSound op).sound hSound)
    rw [runPushes, run, Outcome.mission_andThen, Outcome.report_andThen, Report.calls_append,
      List.count_append, List.count_append]
    omega

/-! ## Reasons -/

theorem closed_launch (p : Plan) (b : Board) : closed (launch p b).report.calls = [] := by
  rw [calls_launch]
  apply closed_eq_nil
  intro c hc
  obtain ⟨id, -, rfl⟩ := List.mem_map.mp hc
  exact nofun

theorem finished_launch (p : Plan) (b : Board) :
    (launch p b).report.events.countP Event.isFinished = 0 := by
  apply countP_isFinished
  intro e he
  rw [events_launch] at he
  obtain ⟨g, -, hMem⟩ := List.mem_flatMap.mp he
  rcases List.mem_cons.mp hMem with rfl | hEntry
  · simp [Event.category]
  · obtain ⟨entry, -, rfl⟩ := List.mem_map.mp hEntry
    rw [Entry.event]
    split <;> simp [Event.category]

theorem finished_perform (m : Mission) (req : Request) :
    (m.perform req).report.events.countP Event.isFinished = 0 := by
  apply countP_isFinished
  intro e he
  rw [events_perform] at he
  obtain ⟨t, rfl⟩ := Request.eq_missing_of_mem_faults _ _ he
  simp [Event.category]

theorem finished_fallBack (m : Mission) : m.fallBack.report.events.countP Event.isFinished = 0 := by
  apply countP_isFinished
  intro e he
  obtain ⟨t, rfl⟩ := eq_missing_of_mem_fallBack he
  simp [Event.category]

theorem length_closed_perform (m : Mission) (req : Request) :
    (closed (m.perform req).report.calls).length =
      (if req.pops m.roster then 1 else 0) + if req.resumes m.roster then 1 else 0 := by
  have hPop : (closed m.pop.report.calls).length = if m.roster.stack ≠ [] then 1 else 0 := by
    rw [pop]
    split <;> simp [*, closed, Report.call]
  cases req with
  | order o =>
    have hOrder : closed (m.order o).report.calls = [] := by
      rw [order, engage]
      split <;> rfl
    rw [perform, hOrder]
    rfl
  | resume =>
    have hApplies : Request.resume.resumes m.roster = m.roster.frontTask?.any (·.name ∈ resumable) := by
      simp [Request.resumes, resumable]
    rw [perform, resume, hApplies]
    split
    · rename_i hFront
      -- a front that bears a name stands on a stack that is not empty
      have hStack : m.roster.stack ≠ [] := by
        intro hNil
        simp [frontTask?_eq_none hNil] at hFront
      rw [hPop, if_pos hStack]
      rfl
    · rfl
  | pop =>
    rw [perform, hPop]
    simp [Request.pops, Request.resumes]

theorem length_closed_processCommand (m : Mission) :
    (closed m.processCommand.report.calls).length =
      (m.pending?.toList.countP (·.pops m.roster)) + m.pending?.toList.countP (·.resumes m.roster) := by
  rcases m.command_cases with hText | ⟨c, hParse⟩ | ⟨hText, e, hParse⟩
  · rw [processCommand_of_nil hText, pending?, if_pos hText]
    rfl
  · rw [processCommand_of_ok hParse, pending?, if_neg (Command.ne_empty_of_parse hParse), hParse]
    simpa [List.countP_singleton] using length_closed_perform m c.request
  · rw [processCommand_of_error hText hParse, pending?, if_neg hText, hParse]
    rfl

theorem length_closed_apply (hSound : m.roster.Sound) (op : Op) :
    (closed (m.apply op).report.calls).length =
      (m.apply op).report.events.countP Event.isFinished +
        (m.carried op).toList.countP (·.pops m.roster) +
        (m.carried op).toList.countP (·.resumes m.roster) := by
  have hCommand : m.processCommand.report.events.countP Event.isFinished = 0 :=
    countP_isFinished fun _ => category_processCommand
  cases op with
  | submit | position | wind | preflight => rfl
  | process => rw [apply, carried, hCommand, length_closed_processCommand, Nat.zero_add]
  | request req =>
    rw [apply, carried, finished_perform, length_closed_perform, Nat.zero_add]
    simp [List.countP_singleton]
  | tick dt =>
    have hDrive := (m.untilFallBack_drive dt hSound).countP_isFinished
    rw [apply, closed_tick, events_tick, List.countP_append, List.countP_append, hCommand,
      finished_fallBack, hDrive, List.length_append, length_closed_processCommand, carried]
    omega

theorem length_closed_run (hSound : m.roster.Sound) (ops : List Op) :
    (closed (m.run ops).report.calls).length =
      (m.run ops).report.events.countP Event.isFinished +
        (m.carriedOut ops).countP (fun (r, req) => req.pops r) +
        (m.carriedOut ops).countP (fun (r, req) => req.resumes r) := by
  induction ops generalizing m with
  | nil => rfl
  | cons op ops ih =>
    have hOp := length_closed_apply hSound op
    have hRest := ih ((apply_moves hSound op).sound hSound)
    rw [carriedOut, run, Outcome.report_andThen, Report.calls_append, Report.events_append,
      closed_append, List.length_append, List.countP_append, List.countP_append, List.countP_append,
      List.countP_map, List.countP_map, hOp, hRest]
    simp only [Function.comp_def]
    omega

/--
Over a whole run, for each task, the entries on the stack of the launch and those
put there since are the entries that are still there and those that were closed.
Each task that was closed was reported to be finished, or popped off a stack that
was not empty, or resumed from at the front under one of two names. And in each
operation, what is closed is what is taken off the stack, entry by entry.
-/
theorem conservation (p : Plan) (b : Board) (ops : List Op) :
    let launched := (launch p b).mission
    let o := (launch p b).andThen (run ops)
    (∀ id, launched.roster.stack.count id + (launched.runPushes ops).count id =
      o.mission.roster.stack.count id + o.report.calls.count ⟨id, .close⟩) ∧
    o.report.calls.countP (·.hook = .close) =
      o.report.events.countP Event.isFinished +
        (launched.carriedOut ops).countP (fun (r, req) => req.pops r) +
        (launched.carriedOut ops).countP (fun (r, req) => req.resumes r) ∧
    ∀ op, ∃ early late left, o.mission.pushes op = early ++ late ∧
      early ++ o.mission.roster.stack = closed (o.mission.apply op).report.calls ++ left ∧
      (o.mission.apply op).mission.roster.stack = late ++ left := by
  intro launched o
  have hSound : launched.roster.Sound := sound_launch p b
  refine ⟨fun id => ?_, ?_, fun op => apply_stack (sound_after p b ops) op⟩
  · have hRun := count_run hSound ops id
    rw [Outcome.report_andThen, Report.calls_append, List.count_append, ← count_closed,
      closed_launch, List.count_nil, Nat.zero_add]
    exact hRun
  · have hRun := length_closed_run hSound ops
    rw [← length_closed, Outcome.report_andThen, Report.calls_append, Report.events_append,
      closed_append, closed_launch, List.nil_append, List.countP_append, finished_launch, Nat.zero_add]
    exact hRun

end Mission

end Sortie
