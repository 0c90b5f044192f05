import TriggerBench.Measurement
import TriggerBench.Responder.Serve
import TriggerBench.Settings

/-! A rig is a board that has been set up for the measurement of one workload. It
measures once on its own account, or serves the run command over the board's serial
line. -/

namespace TriggerBench

structure Board (World : Type) where
  preparePlatform : Action World Unit
  startSerial : Action World Unit
  setUpTrigger : Action World Unit
  port : Port World
  console : Console World
  pin : Pin World

def banner : List UInt8 := "Starting\n".toList.map Char.toUInt8

structure Rig (World : Type) where
  settings : Settings
  mode : Mode
  port : Port World
  measurement : Measurement World

namespace Rig

variable {World : Type}

def setUp (settings : Settings) (board : Board World) (workload : Action World Unit) :
    Action World (Rig World) := do
  board.preparePlatform
  board.startSerial
  board.setUpTrigger
  let printer : Printer World := { console := board.console, enabled := settings.debug }
  printer.print banner
  pure
    { settings
      mode := settings.mode
      port := board.port
      measurement := { pin := board.pin, workload, printer } }

def measureOnce (rig : Rig World) : Action World Status :=
  rig.measurement.measure [rig.settings.sentinel]

def responder (rig : Rig World) : Except RegistrationError (Responder World) :=
  (Responder.ofProtocol rig.settings.protocol).register rig.settings.command
    rig.settings.payloadLength rig.measurement.handler

abbrev Connection (World : Type) := Link frameCapacity World

def serve (rig : Rig World) : Action World RegistrationError := fun world =>
  match rig.responder with
  | .error error => .ok error world
  | .ok responder =>
      match responder.serve rig.port (Link.fresh world : Connection World) with
      | (stop, link) => .error stop link.world

def run (rig : Rig World) : Action World (Except RegistrationError Status) :=
  match rig.mode with
  | .singleShot => do
      let status ← rig.measureOnce
      pure (.ok status)
  | .serialLoop => do
      let error ← rig.serve
      pure (.error error)

end Rig

end TriggerBench
