import TriggerBench.Session.Logged
import TriggerBench.Simulation.Bench

/-! Measurements are made directly or on request, and messages go to the same printer. -/

namespace TriggerBench.Session.Measuring

open Simulation

inductive Step
  | measure (selection : List UInt8)
  /-- Handle a request, with a reply that data may have been queued in beforehand. -/
  | handle (request : Request) (queued : Option (List UInt8))
  | print (message : List UInt8)
  | isEnabled
  deriving DecidableEq, Repr

inductive Result
  | measured (status : Status)
  | answered (answer : TriggerBench.Answer)
  | printed
  | enabled (enabled : Bool)
  deriving DecidableEq, Repr

def Step.action {World : Type} (measurement : Measurement World) :
    Step → Action World Result
  | .measure selection => do
      let status ← measurement.measure selection
      pure (.measured status)
  | .handle request queued => do
      let reply := match queued with
        | some data => (Reply.empty.send data).1
        | none => .empty
      let answer ← measurement.handler request reply
      pure (.answered answer)
  | .print message => do
      measurement.printer.print message
      pure .printed
  | .isEnabled => pure (.enabled measurement.printer.enabled)

def measurement (debug : Bool) : Measurement (Bench Unit) where
  pin := Bench.pin
  workload := Bench.execute
  printer := { console := Bench.console, enabled := debug }

def run (debug : Bool) (bench : Bench Unit) (steps : List Step) :
    List (Logged Event (Except Stop Result)) :=
  answers (fun step bench =>
    observe Bench.drain (step.action (measurement debug)) bench) steps bench

end TriggerBench.Session.Measuring
