import TriggerBench.Simulation.Bench

/-! A scripted handler queues replies and picks its status by rule. The memory of the
bench lists its calls under its number. -/

namespace TriggerBench.Simulation

inductive ReplyRule
  | data (bytes : List UInt8)
  | echo
  | twice
  deriving DecidableEq, Repr

inductive StatusRule
  | constant (status : UInt8)
  | first
  | length
  | subcommand
  | command
  | sum
  /-- How often the handler has been called, this call included. -/
  | calls
  | fault
  deriving DecidableEq, Repr

structure HandlerScript where
  name : Nat
  replies : List ReplyRule
  status : StatusRule
  deriving DecidableEq, Repr

def ReplyRule.bytes (payload : List UInt8) : ReplyRule → List UInt8
  | data bytes => bytes
  | echo => payload
  | twice => payload ++ payload

def StatusRule.pick (request : Request) (callCount : Nat) : StatusRule → Option UInt8
  | constant status => some status
  | first => some (request.payload.headD 0)
  | length => some (UInt8.ofNat request.payload.length)
  | subcommand => some request.subcommand
  | command => some request.command
  | sum => some (request.payload.foldl (· + ·) 0)
  | calls => some (UInt8.ofNat callCount)
  | fault => none

def queueEach (reply : Reply) : List (List UInt8) → Reply × List Bool
  | [] => (reply, [])
  | data :: rest =>
      let (after, refusal) := reply.send data
      let (final, accepted) := queueEach after rest
      (final, refusal.isNone :: accepted)

abbrev CallMemory := List Nat

def HandlerScript.handler (script : HandlerScript) (number : Nat) :
    Handler (Bench CallMemory) :=
  fun request reply bench =>
    let (queued, accepted) :=
      queueEach reply (script.replies.map (·.bytes request.payload))
    let called :=
      { bench with memory := number :: bench.memory }.record
        (.called script.name request accepted)
    match script.status.pick request (called.memory.count number) with
    | some status => .ok { status, reply := queued } called
    | none => .error (.fault .handler) called

end TriggerBench.Simulation
