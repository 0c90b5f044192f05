import TriggerBench.Handler
import TriggerBench.Session.Logged

namespace TriggerBench.Session.Replying

structure Answer where
  accepted : Bool
  payload : Option Payload
  deriving DecidableEq, Repr

def take (data : List UInt8) (reply : Reply) : Answer × Reply :=
  match reply.send data with
  | (after, refusal) => ({ accepted := refusal.isNone, payload := after.payload }, after)

def run (pieces : List (List UInt8)) : List Answer :=
  answers take pieces .empty

end TriggerBench.Session.Replying
