import TriggerBench.Session.Logged
import TriggerBench.Simulation.Core

/-! The serial line and the trigger line of a soft core are used directly. -/

namespace TriggerBench.Session.Registers

open Simulation

inductive Step
  | preparePlatform
  | setUpTrigger
  | raise
  | lower
  | read (length : Nat)
  | write (data : List UInt8)
  | flush
  | put (byte : UInt8)
  deriving DecidableEq, Repr

inductive Result
  | done
  | read (count : Nat) (destination : List UInt8)
  | written (count : Nat)
  deriving DecidableEq, Repr

def Step.action {World : Type} (bus : SoftCore.Bus World) : Step → Action World Result
  | .preparePlatform => do
      (SoftCore.board bus).preparePlatform
      pure .done
  | .setUpTrigger => do
      (SoftCore.board bus).setUpTrigger
      pure .done
  | .raise => do
      let _ ← Action.ofStep (SoftCore.pin bus).setHigh
      pure .done
  | .lower => do
      let _ ← Action.ofStep (SoftCore.pin bus).setLow
      pure .done
  | .read length => do
      let bytes ← SoftCore.Uart.read bus length
      pure (.read bytes.length (bytes ++ List.replicate (length - bytes.length) 0))
  | .write data => do
      let count ← SoftCore.Uart.write bus data
      pure (.written count)
  | .flush => do
      let _ ← (SoftCore.Uart.port bus).flush
      pure .done
  | .put byte => do
      (SoftCore.console bus).put byte
      pure .done

structure Record where
  setUp : List CoreEvent
  answers : List (Logged CoreEvent (Except Stop Result))

def setUp {World : Type} (board : Board World) : Action World Unit := do
  board.startSerial
  board.setUpTrigger

def run (core : Core) (steps : List Step) : Record :=
  match observe Core.drain (setUp Core.board) core with
  | (opening, ready) =>
      { setUp := opening.log
        answers :=
          answers (fun step core =>
            observe Core.drain (step.action Core.bus) core) steps ready }

end TriggerBench.Session.Registers
