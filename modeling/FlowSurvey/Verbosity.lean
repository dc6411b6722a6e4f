/-!
# Verbosity

How much is said about a run.  The levels are ordered from the least to the most;
asking for quiet outweighs asking for more.
-/

namespace FlowSurvey

inductive Verbosity where
  | quiet
  | normal
  | verbose
  | debug
  | trace
  deriving DecidableEq, Repr

namespace Verbosity

/-- The level for a number of requests for more, unless quiet is asked for. -/
def ofFlags (more : Nat) (quiet : Bool) : Verbosity :=
  if quiet then .quiet
  else
    match more with
    | 0 => .normal
    | 1 => .verbose
    | 2 => .debug
    | _ => .trace

def rank : Verbosity → Nat
  | .quiet => 0
  | .normal => 1
  | .verbose => 2
  | .debug => 3
  | .trace => 4

def name : Verbosity → String
  | .quiet => "Quiet"
  | .normal => "Normal"
  | .verbose => "Verbose"
  | .debug => "Debug"
  | .trace => "Trace"

instance : Ord Verbosity := ⟨fun a b => compare a.rank b.rank⟩

def shows (v level : Verbosity) : Bool :=
  level.rank ≤ v.rank

end Verbosity

end FlowSurvey
