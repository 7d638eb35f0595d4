import Sortie.Startup
import Sortie.Journal
import Sortie.Decimal.Notation
import Sortie.Text.Terminal

/-!
# The console

What the program prints and logs when it starts. Nothing that it decides depends on this.
-/

namespace Sortie.Console

/-- The lines of a logged message; the source is the part of the program that it comes from. -/
def logLines (level : Level) (message : String) (source : String := "mission_sim") : List String :=
  (level.name ++ " " ++ source ++ ": " ++ Text.forTerminal message).splitOn "\n"

/-- What is logged of events, which is all but the chatter for debugging. -/
def eventLines (events : List Event) : List String :=
  (events.map Event.line).flatMap fun l =>
    if l.level = .debug then []
    else logLines l.level (l.message ++ " category=" ++ Text.quoted l.category) "pico_mission_sitl::sink"

def announcement (o : Options) : String :=
  "mission running, enter commands on stdin, Ctrl+C to stop config=" ++ o.config ++
    " rate_hz=" ++ Decimal.render o.rate.toFloat

/-- What is logged before the first tick: the mission is launched, then announced. -/
def preamble (o : Options) (p : Plan) : List String :=
  eventLines (Flight.start p o.vehicle).2.events ++ logLines .info (announcement o)

def log : Startup → List String
  | .help | .refused _ => []
  | .failed e => logLines .error e.message
  | .stalled o p | .run o p => preamble o p

/-- What is printed in answer to the arguments. -/
def errors : Startup → String
  | .help => usage
  | .refused e => e.message
  | _ => ""

end Sortie.Console
