import TriggerBench.Handler

/-! Each registered command has one handler and one payload length. -/

namespace TriggerBench

structure CommandEntry (World : Type) where
  command : UInt8
  length : Nat
  handler : Handler World

structure CommandTable (World : Type) where
  entries : List (CommandEntry World)

namespace CommandTable

variable {World : Type}

def empty : CommandTable World where
  entries := []

def find? (table : CommandTable World) (command : UInt8) : Option (CommandEntry World) :=
  table.entries.find? (·.command == command)

def replaceIn (entry : CommandEntry World) :
    List (CommandEntry World) → List (CommandEntry World)
  | [] => []
  | present :: rest =>
      if present.command == entry.command then entry :: rest
        else present :: replaceIn entry rest

/-- Registers a command. A payload length beyond the limit is refused before anything else
is looked at. -/
def register (table : CommandTable World) (entry : CommandEntry World) :
    Except RegistrationError (CommandTable World) :=
  if maxPayload < entry.length then .error .payloadTooLong
  else if (table.find? entry.command).isSome then
    .ok { entries := replaceIn entry table.entries }
  else if table.entries.length < maxCommands then
    .ok { entries := table.entries ++ [entry] }
  else .error .full

end CommandTable

end TriggerBench
