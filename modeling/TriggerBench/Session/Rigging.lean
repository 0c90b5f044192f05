import TriggerBench.Rig
import TriggerBench.Session.Logged
import TriggerBench.Simulation.Bench
import TriggerBench.Simulation.Core

/-! A rig is set up on a simulated board and then asked to measure or to serve. Nothing
further is asked of a rig whose setting up was stopped. -/

namespace TriggerBench.Session.Rigging

open Simulation

structure Scene (World Event : Type) where
  board : Board World
  workload : Action World Unit
  drain : World → List Event × World
  feed : List Delivery → World → World
  /-- Says whether the port waits for ever once it has nothing left to deliver. -/
  setEndless : Bool → World → World

def benchScene : Scene (Bench Unit) Event where
  board := Bench.board
  workload := Bench.execute
  drain := Bench.drain
  feed deliveries bench := bench.feed deliveries
  setEndless := Bench.setEndless

/-- A soft core as a scene. Its serial line always waits, and is fed through its registers
only. -/
def coreScene : Scene Core CoreEvent where
  board := Core.board
  workload := Core.execute
  drain := Core.drain
  feed _ core := core
  setEndless _ core := core

inductive Step
  | mode
  | settings
  | feed (deliveries : List Delivery)
  | measureOnce
  | run
  /-- Start serving afresh and serve one frame, a number of times. -/
  | serveOne (times : Nat)
  | serve
  deriving DecidableEq, Repr

inductive Answer (Event : Type)
  | mode (mode : Mode)
  | settings (settings : Settings)
  | done
  | measured (status : Logged Event (Except Stop Status))
  | ran (result : Logged Event (Except Stop (Except RegistrationError Status)))
  | served (outcomes : List (Logged Event (Except Interruption Outcome)))
  | refused (error : Logged Event RegistrationError)
  | stopped (result : Logged Event (Except Stop RegistrationError))

variable {World Event : Type}

def observeEndless {Result : Type} (scene : Scene World Event)
    (action : Action World Result) (world : World) :
    Logged Event (Except Stop Result) × World :=
  match ending action (scene.setEndless true world) with
  | (result, after) => report scene.drain result (scene.setEndless false after)

def drainConnection (scene : Scene World Event) (connection : Rig.Connection World) :
    List Event × Rig.Connection World :=
  match scene.drain connection.world with
  | (log, world) => (log, { connection with world })

def take (scene : Scene World Event) (rig : Rig World) (step : Step) (world : World) :
    Answer Event × World :=
  match step with
  | .mode => (.mode rig.mode, world)
  | .settings => (.settings rig.settings, world)
  | .feed deliveries => (.done, scene.feed deliveries world)
  | .measureOnce =>
      match observe scene.drain rig.measureOnce world with
      | (status, after) => (.measured status, after)
  | .run =>
      match observeEndless scene rig.run world with
      | (result, after) => (.ran result, after)
  | .serveOne times =>
      match rig.responder with
      | .error error =>
          match report scene.drain error world with
          | (refusal, after) => (.refused refusal, after)
      | .ok responder =>
          match observeTimes (drainConnection scene) (responder.serveOne rig.port) times
            (Link.fresh world) with
          | (outcomes, connection) => (.served outcomes, connection.world)
  | .serve =>
      match observeEndless scene rig.serve world with
      | (result, after) => (.stopped result, after)

structure Record (Event : Type) where
  setUp : Logged Event (Except Stop Unit)
  answers : List (Answer Event)

def run (scene : Scene World Event) (settings : Settings) (world : World)
    (steps : List Step) : Record Event :=
  match ending (Rig.setUp settings scene.board scene.workload) world with
  | (.ok rig, ready) =>
      match report scene.drain (.ok ()) ready with
      | (setUp, started) =>
          { setUp, answers := Session.answers (take scene rig) steps started }
  | (.error stop, left) =>
      { setUp := (report scene.drain (.error stop) left).1, answers := [] }

end TriggerBench.Session.Rigging
