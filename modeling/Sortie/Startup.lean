import Sortie.CommandLine
import Sortie.Flight
import Sortie.Plan.Grouped

/-!
# Starting up

What becomes of an argument list: an end at once, or a simulation to run. How a plan
is loaded is left open.
-/

namespace Sortie

def Options.vehicle (o : Options) : Vehicle where
  position := { lon := o.lon, lat := o.lat }
  wind := o.wind

inductive Startup where
  | help
  | refused (e : UsageError)
  | failed (e : PlanError)
  /-- The mission is launched, but no timer can wait for the period of its ticks. -/
  | stalled (o : Options) (p : Plan)
  | run (o : Options) (p : Plan)

namespace Startup

/-- The exit code of a program that ends at once; there is none while a simulation runs. -/
def exitCode? : Startup → Option UInt32
  | help => some 0
  | refused _ | failed _ => some 1
  | stalled _ _ => some 101
  | run _ _ => none

/-- A plan that loads is flown, unless the timer cannot be set. -/
def ofPlan (o : Options) : Except PlanError Plan → Startup
  | .ok p => if o.periodFits then run o p else stalled o p
  | .error e => failed e

/-- The plan is loaded only when the arguments are in order. -/
def ofArgs {m : Type → Type} [Monad m] (load : String → m (Except PlanError Plan))
    (args : List String) : m Startup :=
  match Invocation.ofArgs args with
  | .run o => do return ofPlan o (← load o.config)
  | .help => return help
  | .refused e => return refused e

end Startup

end Sortie
