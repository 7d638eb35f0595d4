import Sortie.Console

/-!
# The program

Flies a plan at a fixed rate against the simulated vehicle. Each line of
standard input is submitted as a command.
-/

namespace Sortie.Program

def fileError : IO.Error → FileError
  | .noFileOrDirectory _ _ _ => .notFound
  | .invalidArgument _ 36 _ => .nameTooLong
  | .inappropriateType _ code _ => if code = 20 then .notDirectory else .isDirectory
  | e => .other (toString e)

def read (path : String) : IO (Except FileError ByteArray) := do
  if '\x00' ∈ path.toList then return .error .zeroInPath
  match ← (IO.FS.readBinFile path).toBaseIO with
  | .ok bytes => return .ok bytes
  | .error e => return .error (fileError e)

def log (level : Level) (message : String) : IO Unit := do
  for l in Console.logLines level message do
    IO.println l

def logEvents (events : List Event) : IO Unit := do
  for l in Console.eventLines events do
    IO.println l

/-- Keeps the lines of standard input until they are taken. -/
partial def listen (input : IO.FS.Stream) (pending : IO.Ref (List String)) : IO Unit := do
  let line ← input.getLine
  if line.isEmpty then return
  pending.modify (· ++ [line])
  listen input pending

def submitAll (f : Flight) : List String → IO Flight
  | [] => return f
  | line :: rest => do
    if Text.trim line = "" then submitAll f rest
    else match f.submit line with
      | .ok f => submitAll f rest
      | .error e => do
        log .warn e.message
        submitAll f rest

partial def fly (o : Options) (pending : IO.Ref (List String)) (f : Flight) : IO Unit := do
  let started ← submitAll f (← pending.modifyGet fun l => (l, []))
  let (f', report) := started.step o.period
  logEvents report.events
  if f'.mission.board.current ≠ f.mission.board.current then
    log .info ("current task task=" ++ f'.mission.board.current ++ " stack=[" ++
      ", ".intercalate (f'.stackNames.map Text.quoted) ++ "]")
  if f'.mission.board.result ≠ f.mission.board.result then
    log .info ("command result=" ++ f'.mission.board.result)
  IO.sleep (o.period * 1000).toUInt32
  fly o pending f'

end Sortie.Program

open Sortie in
def main (args : List String) : IO UInt32 := do
  let s ← Startup.ofArgs (Plan.Grouped.load Program.read) args
  for l in Console.log s do
    IO.println l
  IO.eprint (Console.errors s)
  match s with
  | .run o p =>
    let pending ← IO.mkRef []
    let _ ← IO.asTask (Program.listen (← IO.getStdin) pending) Task.Priority.dedicated
    Program.fly o pending (Flight.start p o.vehicle).1
  | .stalled _ _ => IO.eprintln "the timer cannot be set to the period of the ticks"
  | _ => pure ()
  return s.exitCode?.getD 0
