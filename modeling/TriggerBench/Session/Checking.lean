import TriggerBench.Checksum
import TriggerBench.Session.Logged

namespace TriggerBench.Session.Checking

inductive Step
  | update (bytes : List UInt8)
  | finish
  deriving DecidableEq, Repr

def take (step : Step) (checksum : Checksum) : Option UInt8 × Checksum :=
  match step with
  | .update bytes => (none, checksum.update bytes)
  | .finish =>
      match checksum.finish with
      | (value, fresh) => (some value, fresh)

def run (steps : List Step) : List (Option UInt8) :=
  answers take steps {}

end TriggerBench.Session.Checking
