import TriggerBench.CommandTable
import TriggerBench.Frame.Stuffed
import TriggerBench.Frame.Text
import TriggerBench.Port
import TriggerBench.Protocol
import TriggerBench.StagingBuffer

/-! A responder serves the commands of a table under one protocol revision. It may also
answer the version command on its own, which a registered command takes precedence
over. -/

namespace TriggerBench

inductive PortCall
  | read
  | write
  | flush
  deriving DecidableEq, Repr

inductive ServiceError
  | port (call : PortCall)
  | endOfStream
  | payloadTooLong
  deriving DecidableEq, Repr

inductive Interruption
  | failed (error : ServiceError)
  | stopped (stop : Stop)
  deriving DecidableEq, Repr

abbrev Activity (State Result : Type) := EStateM Interruption State Result

def Activity.ofAction {State Result : Type} (action : Action State Result) :
    Activity State Result := fun state =>
  match action state with
  | .ok result after => .ok result after
  | .error stop after => .error (.stopped stop) after

inductive Outcome
  | handled (command status : UInt8)
  | rejected (reason : Rejection)
  deriving DecidableEq, Repr

structure Responder (World : Type) where
  protocol : Protocol
  table : CommandTable World
  /-- Whether the version command is answered without a handler. -/
  answersVersion : Bool

/-- A connection to a host: the bytes received but not used up, and the world of the
port. -/
structure Link (capacity : Nat) (World : Type) where
  staged : StagingBuffer capacity
  world : World

namespace Link

variable {capacity : Nat} {World : Type}

def fresh (world : World) : Link capacity World where
  staged := .empty
  world := world

def worldComponent : Component (Link capacity World) World where
  get link := link.world
  set world link := { link with world }

end Link

namespace Responder

variable {World : Type}

def ofProtocol (protocol : Protocol) : Responder World where
  protocol := protocol
  table := .empty
  answersVersion := false

def answeringVersion (responder : Responder World) : Responder World :=
  { responder with answersVersion := true }

def register (responder : Responder World) (command : UInt8) (length : Nat)
    (handler : Handler World) : Except RegistrationError (Responder World) :=
  (responder.table.register { command, length, handler }).map fun table =>
    { responder with table }

def expectedLength (responder : Responder World) (command : UInt8) : Option Nat :=
  match responder.table.find? command with
  | some entry => some entry.length
  | none => if responder.answersVersion && command == versionCommand then some 0 else none

def examine (responder : Responder World) (staged : List UInt8) : Option Examined :=
  if responder.protocol.isText then TextFrame.examine responder.expectedLength staged
  else StuffedFrame.examine staged

end Responder

end TriggerBench
