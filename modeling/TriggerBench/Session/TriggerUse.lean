import TriggerBench.Session.Logged
import TriggerBench.Simulation.Bench

namespace TriggerBench.Session.TriggerUse

open Simulation

inductive Ending
  /-- The line is lowered, and the outcome of that is asked for. -/
  | close
  | abandon
  | fault
  deriving DecidableEq, Repr

def use {World : Type} (pin : Pin World) : Ending → Action World Window
  | .close => pin.around (pure ())
  | .abandon => pin.aroundUnasked (pure ())
  | .fault => pin.around (throw (.fault .workload))

def run (bench : Bench Unit) (endings : List Ending) :
    List (Logged Event (Except Stop Window)) :=
  answers (fun ending bench =>
    observe Bench.drain (use Bench.pin ending) bench) endings bench

end TriggerBench.Session.TriggerUse
