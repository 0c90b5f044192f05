import TriggerBench.Session.Logged
import TriggerBench.Simulation.ScriptedHandler

/-! A host registers scripted handlers on a responder, feeds its serial line and lets it
serve frames. Handlers are numbered in the order in which they are offered. -/

namespace TriggerBench.Session.Serial

open Simulation

inductive Step
  | register (command : UInt8) (length : Nat) (script : HandlerScript)
  | answerVersion
  | protocol
  | feed (deliveries : List Delivery)
  | serveOne (times : Nat)
  | send (tag : UInt8) (data : List UInt8)
  | serve
  deriving DecidableEq, Repr

inductive Answer
  | done
  | refused (error : RegistrationError)
  | protocol (protocol : Protocol)
  | served (outcomes : List (Logged Event (Except Interruption Outcome)))
  | sent (result : Logged Event (Except Interruption Unit))
  | stopped (stop : Logged Event Stop)

structure State (capacity : Nat) where
  responder : Responder (Bench CallMemory)
  link : Link capacity (Bench CallMemory)
  offered : Nat

variable {capacity : Nat}

def drain (link : Link capacity (Bench CallMemory)) :
    List Event × Link capacity (Bench CallMemory) :=
  match link.world.drain with
  | (log, world) => (log, { link with world })

def setEndless (endless : Bool) (link : Link capacity (Bench CallMemory)) :
    Link capacity (Bench CallMemory) :=
  { link with world := link.world.setEndless endless }

def take (step : Step) (state : State capacity) : Answer × State capacity :=
  match step with
  | .register command length script =>
      let counted := { state with offered := state.offered + 1 }
      match state.responder.register command length (script.handler state.offered) with
      | .ok responder => (.done, { counted with responder })
      | .error error => (.refused error, counted)
  | .answerVersion =>
      (.done, { state with responder := state.responder.answeringVersion })
  | .protocol => (.protocol state.responder.protocol, state)
  | .feed deliveries =>
      (.done, { state with
        link := { state.link with world := state.link.world.feed deliveries } })
  | .serveOne times =>
      match observeTimes drain (state.responder.serveOne Bench.port) times state.link with
      | (outcomes, link) => (.served outcomes, { state with link })
  | .send tag data =>
      let sending :=
        Link.worldComponent.lift (state.responder.protocol.send Bench.port tag data)
      match observe drain sending state.link with
      | (result, link) => (.sent result, { state with link })
  | .serve =>
      match state.responder.serve Bench.port (setEndless true state.link) with
      | (stop, link) =>
          match report drain stop (setEndless false link) with
          | (stopped, drained) => (.stopped stopped, { state with link := drained })

def run (protocol : Protocol) (capacity : Nat) (bench : Bench CallMemory)
    (steps : List Step) : List Answer :=
  answers take steps
    ({ responder := .ofProtocol protocol, link := .fresh bench,
       offered := 0 } : State capacity)

end TriggerBench.Session.Serial
