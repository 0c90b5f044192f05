import TriggerBench.Action
import TriggerBench.Frame

/-! A handler may queue one reply, and answers a request with a status byte. -/

namespace TriggerBench

/-- What a handler is told. The subcommand is zero under the text protocols. -/
structure Request where
  command : UInt8
  subcommand : UInt8
  payload : List UInt8
  deriving DecidableEq, Repr

def Frame.request (frame : Frame) : Request where
  command := frame.command
  subcommand := frame.subcommand
  payload := frame.payload.bytes

structure Reply where
  payload : Option Payload
  deriving DecidableEq, Repr

namespace Reply

def empty : Reply where
  payload := none

/-- Queues data in place of anything queued before. Data that is too long is refused and
leaves the reply alone. -/
def send (reply : Reply) (data : List UInt8) : Reply × Option Violation :=
  match Payload.ofList? data with
  | some payload => ({ payload := some payload }, none)
  | none => (reply, some .payloadTooLong)

end Reply

structure Answer where
  status : UInt8
  reply : Reply
  deriving DecidableEq, Repr

abbrev Handler (World : Type) := Request → Reply → Action World Answer

end TriggerBench
