import Sortie.Flight
import Sortie.Proofs.Text.Trim
import Sortie.Proofs.Mission.Refusal
import Sortie.Proofs.Mission.Reports

/-!
# The command slot of a flight

The slot holds one text. A line that fits replaces it, a line that is too long
changes nothing, and a step takes out what is there. So each step processes the
last accepted text since the step before, and over a whole flight no such text is
lost or processed twice.
-/

namespace Sortie

namespace Event

def command? : Event → Option String
  | accepted text => some text
  | refused _ text => some text
  | _ => none

theorem command?_of_mission {e : Event} (h : e.category = .mission) : e.command? = none := by
  cases e <;> first | rfl | cases h

end Event

def Report.commands (r : Report) : List String := r.events.filterMap Event.command?

theorem Report.commands_append (r s : Report) : (r ++ s).commands = r.commands ++ s.commands :=
  List.filterMap_append

namespace Mission

variable (m : Mission) (dt : Float32)

theorem tick_of_request {text : String} (hText : text ≠ "") (h : m.board.request = text) :
    m.tick dt = ((m.write Board.clearRequest).execute text).andThen (·.proceed dt) := by
  rw [tick_eq_proceed, processCommand, h, if_neg hText]

theorem commands_processCommand :
    m.processCommand.report.commands = if m.board.request = "" then [] else [m.board.request] := by
  rcases m.command_cases with hText | ⟨c, hParse⟩ | ⟨hText, e, hParse⟩
  · rw [if_pos hText, processCommand_of_nil hText]
    rfl
  · have hFaults : (c.request.faults m.roster).filterMap Event.command? = [] := by
      rw [List.filterMap_eq_nil_iff]
      intro e he
      obtain ⟨t, rfl⟩ := Request.eq_missing_of_mem_faults _ _ he
      rfl
    rw [if_neg (Command.ne_empty_of_parse hParse), processCommand_of_ok hParse]
    simp [Report.commands, Event.command?, hFaults]
  · rw [if_neg hText, processCommand_of_error hText hParse]
    rfl

theorem commands_tick (hSound : m.roster.Sound) :
    (m.tick dt).report.commands = if m.board.request = "" then [] else [m.board.request] := by
  have hFront :
      ((m.untilFront dt).mission.driveFront dt).report.events.filterMap Event.command? = [] := by
    rw [List.filterMap_eq_nil_iff]
    exact fun e he => Event.command?_of_mission ((m.untilFallBack_drive dt hSound).category e he)
  have hFallBack :
      (m.untilFallBack dt).mission.fallBack.report.events.filterMap Event.command? = [] := by
    rw [List.filterMap_eq_nil_iff]
    intro e he
    obtain ⟨t, rfl⟩ := eq_missing_of_mem_fallBack he
    rfl
  rw [← commands_processCommand, Report.commands, events_tick, List.filterMap_append,
    List.filterMap_append, hFront, hFallBack, List.append_nil, List.append_nil]
  rfl

end Mission

namespace Flight

inductive Op where
  | submit (line : String)
  | step (dt : Float32)
  | steer (v : Vehicle)
deriving DecidableEq

def apply (f : Flight) : Op → Flight × Report
  | .submit line =>
    match f.submit line with
    | .ok g => (g, ∅)
    | .error _ => (f, ∅)
  | .step dt => f.step dt
  | .steer v => ({ f with vehicle := v }, ∅)

def run : List Op → Flight → Flight × Report
  | [], f => (f, ∅)
  | op :: ops, f => ((run ops (f.apply op).1).1, (f.apply op).2 ++ (run ops (f.apply op).1).2)

def Op.isStep : Op → Bool
  | step _ => true
  | _ => false

def Op.accepted? : Op → Option String
  | submit line => if (Text.trim line).utf8ByteSize ≤ 255 then some (Text.trim line) else none
  | _ => none

/-- The last text that was accepted since the last step. -/
def latest? (past : List Op) : Option String :=
  (past.reverse.takeWhile fun op => !op.isStep).findSome? Op.accepted?

def due? (past : List Op) : Option String := (latest? past).filter (· ≠ "")

def processed (past : List Op) : List Op → List String
  | [] => []
  | op :: ops => (if op.isStep then (due? past).toList else []) ++ processed (past ++ [op]) ops

section

variable {past : List Op} {f : Flight}

theorem latest?_append (past : List Op) (op : Op) :
    latest? (past ++ [op]) = if op.isStep then none else op.accepted?.or (latest? past) := by
  rw [latest?, latest?, List.reverse_append, List.reverse_singleton, List.singleton_append,
    List.takeWhile_cons]
  by_cases hStep : op.isStep
  · simp [hStep]
  · simp only [hStep, Bool.not_false, if_true, Bool.false_eq_true, if_false, List.findSome?_cons]
    cases op.accepted? <;> rfl

theorem submit_of_lt {line : String} (h : maxCommandBytes < (Text.trim line).utf8ByteSize) :
    f.submit line = .error ⟨(Text.trim line).utf8ByteSize⟩ := by
  rw [submit, if_pos h]

theorem submit_of_le {line : String} (h : (Text.trim line).utf8ByteSize ≤ maxCommandBytes) :
    f.submit line = .ok { f with mission := f.mission.write (·.submit (Text.trim line)) } := by
  rw [submit, if_neg (Nat.not_lt.mpr h)]

theorem mission_step (f : Flight) (dt : Float32) :
    (f.step dt).1.mission = ((f.mission.write (f.vehicle.step dt).publish).tick dt).mission := rfl

theorem request_step (f : Flight) (dt : Float32) : (f.step dt).1.mission.board.request = "" := by
  rw [mission_step, Mission.request_tick]

structure Underway (past : List Op) (f : Flight) : Prop where
  sound : f.mission.roster.Sound
  slot : f.mission.board.request = (latest? past).getD ""

theorem underway_start (p : Plan) (v : Vehicle) : Underway [] (start p v).1 where
  sound := Mission.sound_launch p (v.publish {})
  slot := by
    have hBoard : (start p v).1.mission.board = v.publish {} := Mission.board_launch p (v.publish {})
    rw [hBoard]
    rfl

theorem Underway.apply (h : Underway past f) (op : Op) : Underway (past ++ [op]) (f.apply op).1 := by
  have hSame : op.isStep = false → op.accepted? = none → Underway (past ++ [op]) f := by
    intro hStep hAccepted
    refine ⟨h.sound, ?_⟩
    rw [latest?_append, hStep, hAccepted]
    exact h.slot
  cases op with
  | submit line =>
    by_cases hLine : (Text.trim line).utf8ByteSize ≤ 255
    · have hAccepted : (Op.submit line).accepted? = some (Text.trim line) := by
        rw [Op.accepted?, if_pos hLine]
      rw [Flight.apply, submit_of_le hLine]
      refine ⟨h.sound, ?_⟩
      rw [latest?_append, hAccepted]
      rfl
    · have hAccepted : (Op.submit line).accepted? = none := by rw [Op.accepted?, if_neg hLine]
      rw [Flight.apply, submit_of_lt (Nat.lt_of_not_le hLine)]
      exact hSame rfl hAccepted
  | step dt =>
    have hMoves := Mission.tick_moves (f.mission.write (f.vehicle.step dt).publish) dt h.sound
    refine ⟨hMoves.sound h.sound, ?_⟩
    rw [latest?_append]
    exact f.request_step dt
  | steer v =>
    have hKept := hSame rfl rfl
    exact ⟨hKept.sound, hKept.slot⟩

theorem Underway.run (h : Underway past f) (ops : List Op) :
    Underway (past ++ ops) (f.run ops).1 := by
  -- the past grows at its end while the operations are taken from their front
  induction ops generalizing past f with
  | nil =>
    rw [List.append_nil]
    exact h
  | cons op ops ih =>
    have hOps := ih (h.apply op)
    rw [List.append_assoc] at hOps
    exact hOps

theorem due?_eq_none_iff : due? past = none ↔ (latest? past).getD "" = "" := by
  rw [due?]
  cases latest? past <;> simp [Option.filter]

theorem due?_eq_some_iff {text : String} :
    due? past = some text ↔ (latest? past).getD "" = text ∧ text ≠ "" := by
  rw [due?]
  cases latest? past with
  | none => simp [eq_comm]
  | some last =>
    rw [Option.filter_eq_some_iff]
    simp only [Option.some.injEq, Option.getD_some]
    constructor
    · rintro ⟨rfl, hText⟩
      exact ⟨rfl, of_decide_eq_true hText⟩
    · rintro ⟨rfl, hText⟩
      exact ⟨rfl, decide_eq_true hText⟩

theorem Underway.commands_step (h : Underway past f) (dt : Float32) :
    (f.step dt).2.commands = (due? past).toList := by
  have hTick := Mission.commands_tick (f.mission.write (f.vehicle.step dt).publish) dt h.sound
  have hSlot : (f.mission.write (f.vehicle.step dt).publish).board.request =
      (latest? past).getD "" := h.slot
  rw [hSlot] at hTick
  refine hTick.trans ?_
  cases hDue : due? past with
  | none =>
    rw [due?_eq_none_iff.mp hDue, if_pos rfl]
    rfl
  | some text =>
    obtain ⟨hText, hNe⟩ := due?_eq_some_iff.mp hDue
    rw [hText, if_neg hNe]
    rfl

theorem Underway.commands_apply (h : Underway past f) (op : Op) :
    (f.apply op).2.commands = if op.isStep then (due? past).toList else [] := by
  cases op with
  | submit line =>
    rw [Flight.apply]
    split <;> rfl
  | step dt => exact h.commands_step dt
  | steer v => rfl

theorem Underway.commands_run (h : Underway past f) (ops : List Op) :
    (f.run ops).2.commands = processed past ops := by
  induction ops generalizing past f with
  | nil => rfl
  | cons op ops ih =>
    calc (f.run (op :: ops)).2.commands
      _ = (f.apply op).2.commands ++ ((f.apply op).1.run ops).2.commands := Report.commands_append _ _
      _ = processed past (op :: ops) := by rw [h.commands_apply op, ih (h.apply op), processed]

theorem Underway.step_of_none (h : Underway past f) (hDue : due? past = none) (dt : Float32) :
    let n := f.mission.write (f.vehicle.step dt).publish
    n.tick dt = n.proceed dt ∧ (f.step dt).1.mission.board.result = f.mission.board.result := by
  intro n
  have hSlot : n.board.request = "" := h.slot.trans (due?_eq_none_iff.mp hDue)
  refine ⟨n.tick_of_quiet dt hSlot, ?_⟩
  rw [mission_step, n.result_tick, n.result_processCommand, if_pos hSlot]
  rfl

theorem Underway.step_of_some (h : Underway past f) {text : String} (hDue : due? past = some text)
    (dt : Float32) :
    let n := f.mission.write (f.vehicle.step dt).publish
    n.tick dt = ((n.write Board.clearRequest).execute text).andThen (·.proceed dt) ∧
      (f.step dt).1.mission.board.result = match Command.parse text with
        | .ok _ => "successful: " ++ text
        | .error _ => "syntax error: " ++ text := by
  intro n
  obtain ⟨hText, hNe⟩ := due?_eq_some_iff.mp hDue
  have hSlot : n.board.request = text := h.slot.trans hText
  refine ⟨n.tick_of_request dt hNe hSlot, ?_⟩
  rw [mission_step, n.result_tick, n.result_processCommand, hSlot, if_neg hNe]
  rfl

/--
A line is refused exactly if it is longer than 255 bytes without the blanks at
its ends, and then nothing changes; otherwise it stands in the slot. A step
processes the last accepted text since the step before, unless there is none or it
is blank, and posts its result; it empties the slot, and one that processes
nothing leaves the result alone. So what a flight processes are these texts, in
order and each once.
-/
theorem mailbox (p : Plan) (v : Vehicle) (past : List Op) :
    let f := ((start p v).1.run past).1
    (∀ line,
      ((∃ e, f.submit line = .error e) ↔ 255 < (Text.trim line).utf8ByteSize) ∧
      (∀ e, f.submit line = .error e → f.apply (.submit line) = (f, ∅)) ∧
      (∀ g, f.submit line = .ok g →
        g = { f with mission := f.mission.write (·.submit (Text.trim line)) }) ∧
      (Text.trim line = "" ↔ ∀ c ∈ line.toList, Text.isBlank c)) ∧
    f.mission.board.request = (latest? past).getD "" ∧
    (∀ dt,
      let g := f.step dt
      let n := f.mission.write (f.vehicle.step dt).publish
      g.1.mission.board.request = "" ∧
      (due? past = none → g.2.commands = [] ∧ Outcome.mk g.1.mission g.2 = n.proceed dt ∧
        g.1.mission.board.result = f.mission.board.result) ∧
      ∀ text, due? past = some text → g.2.commands = [text] ∧
        Outcome.mk g.1.mission g.2 =
          ((n.write Board.clearRequest).execute text).andThen (·.proceed dt) ∧
        g.1.mission.board.result = match Command.parse text with
          | .ok _ => "successful: " ++ text
          | .error _ => "syntax error: " ++ text) ∧
    ((start p v).1.run past).2.commands = processed [] past := by
  intro f
  have hStart := underway_start p v
  have hFlight : Underway past f := hStart.run past
  refine ⟨fun line => ?_, hFlight.slot, fun dt => ⟨?_, ?_, ?_⟩, hStart.commands_run past⟩
  · by_cases hLine : 255 < (Text.trim line).utf8ByteSize
    · rw [Flight.apply, submit_of_lt hLine]
      exact ⟨⟨fun _ => hLine, fun _ => ⟨_, rfl⟩⟩, fun _ _ => rfl, by simp, Text.trim_eq_empty_iff⟩
    · rw [submit_of_le (Nat.le_of_not_lt hLine)]
      refine ⟨⟨by simp, fun h => absurd h hLine⟩, by simp, ?_, Text.trim_eq_empty_iff⟩
      rintro g hg
      exact (Except.ok.inj hg).symm
  · exact f.request_step dt
  · intro hDue
    obtain ⟨hTick, hResult⟩ := hFlight.step_of_none hDue dt
    refine ⟨?_, hTick, hResult⟩
    rw [hFlight.commands_step dt, hDue]
    rfl
  · intro text hDue
    obtain ⟨hTick, hResult⟩ := hFlight.step_of_some hDue dt
    refine ⟨?_, hTick, hResult⟩
    rw [hFlight.commands_step dt, hDue]
    rfl

end

end Flight

end Sortie
