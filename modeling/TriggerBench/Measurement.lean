import TriggerBench.Console
import TriggerBench.Handler
import TriggerBench.Trigger

/-! The workload runs while the trigger line is high; the console only hears of it
afterwards. -/

namespace TriggerBench

inductive Status
  /-- The workload ran between a raised and a lowered trigger. -/
  | ok
  /-- The trigger line could not be driven, and the measurement is invalid. -/
  | triggerFault
  deriving DecidableEq, Repr

def Status.code : Status → UInt8
  | ok => 0x00
  | triggerFault => 0x01

def confirmation : List UInt8 := "OK!".toList.map Char.toUInt8

structure Measurement (World : Type) where
  pin : Pin World
  workload : Action World Unit
  printer : Printer World

namespace Measurement

variable {World : Type}

def measure (measurement : Measurement World) (_selection : List UInt8) :
    Action World Status := do
  match ← measurement.pin.around measurement.workload with
  | .closed true =>
      measurement.printer.print confirmation
      pure .ok
  | _ => pure .triggerFault

def handler (measurement : Measurement World) : Handler World := fun request reply => do
  let status ← measurement.measure request.payload
  pure { status := status.code, reply }

end Measurement

end TriggerBench
