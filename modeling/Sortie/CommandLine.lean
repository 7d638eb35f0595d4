import Sortie.Decimal.Numeral

/-!
# The command line

Options come in pairs of a name and a value, read from the front; the last value
of an option counts. The range of the rate is checked when all have been read.
-/

namespace Sortie

/-- What a simulation needs to know. -/
structure Options where
  config : String := "crates/sitl/config/mission.json"
  /-- Ticks per second. -/
  rate : Float32 := 50
  lon : Float := -93.1523
  lat : Float := 45.2184
  wind : Float32 := 290
deriving DecidableEq

inductive Setting where
  | config
  | rate
  | lon
  | lat
  | wind
deriving DecidableEq, Repr

namespace Setting

def ofText? : String → Option Setting
  | "-c" | "--config" => some config
  | "--rate" => some rate
  | "--lon" => some lon
  | "--lat" => some lat
  | "--wind" => some wind
  | _ => none

def name : Setting → String
  | config => "config"
  | rate => "rate"
  | lon => "lon"
  | lat => "lat"
  | wind => "wind"

end Setting

inductive UsageError where
  | unknownOption (option : String)
  | missingValue (s : Setting)
  | invalidValue (s : Setting)
  | rateOutOfRange
deriving DecidableEq, Repr

inductive Invocation where
  | run (o : Options)
  | help
  | refused (e : UsageError)
deriving DecidableEq

namespace Options

def set (o : Options) (s : Setting) (value : String) : Option Options :=
  match s with
  | .config => some { o with config := value }
  | .rate => (Decimal.float32? value).map fun x => { o with rate := x }
  | .lon => (Decimal.float? value).map fun x => { o with lon := x }
  | .lat => (Decimal.float? value).map fun x => { o with lat := x }
  | .wind => (Decimal.float32? value).map fun x => { o with wind := x }

def rateInRange (o : Options) : Bool := 0 < o.rate && o.rate ≤ 1000

/-- The seconds between two ticks. -/
def period (o : Options) : Float32 := 1 / o.rate

/-- Whether a timer can wait for a period: it counts whole seconds in 64 bits. -/
def periodFits (o : Options) : Bool := o.period < 18446744073709551616

end Options

namespace Invocation

def isHelp (arg : String) : Bool := arg = "-h" ∨ arg = "--help"

/-- The arguments from here on, given the options that were set before them. -/
def read (o : Options) : List String → Invocation
  | [] => if o.rateInRange then .run o else .refused .rateOutOfRange
  | arg :: rest =>
    if isHelp arg then .help
    else match Setting.ofText? arg with
      | none => .refused (.unknownOption arg)
      | some s =>
        match rest with
        | [] => .refused (.missingValue s)
        | value :: rest =>
          match o.set s value with
          | some o => read o rest
          | none => .refused (.invalidValue s)

def ofArgs (args : List String) : Invocation := read {} args

end Invocation

def usage : String :=
  "Usage: mission_sim [OPTIONS]\n\nOptions:\n" ++
  "  -c, --config <PATH>  Mission config (default: crates/sitl/config/mission.json)\n" ++
  "  --rate <HZ>          Tick rate (default: 50)\n" ++
  "  --lon <DEG>          Initial longitude (default: -93.1523)\n" ++
  "  --lat <DEG>          Initial latitude (default: 45.2184)\n" ++
  "  --wind <DEG>         Wind direction (default: 290)\n" ++
  "  -h, --help           Show this help\n"

namespace UsageError

/-- What is printed; an option that nobody knows is answered with the help text. -/
def message : UsageError → String
  | unknownOption option => "Unknown option: " ++ option ++ "\n" ++ usage
  | missingValue s => "Error: --" ++ s.name ++ " requires a value\n"
  | invalidValue s => "Error: invalid value for --" ++ s.name ++ "\n"
  | rateOutOfRange => "Error: rate must be in (0, 1000] Hz\n"

end UsageError

end Sortie
