import TriggerBench.Port
import TriggerBench.SoftCore.Bus

/-! A read waits for its first byte and takes along what has arrived by then. The port
and the console are the same line. -/

namespace TriggerBench.SoftCore.Uart

variable {World : Type}

def awaitClear (bus : Bus World) (bits : UInt32) : (looks : Nat) → Action World Unit
  | 0 => throw .outOfTurns
  | looks + 1 => do
      let status ← bus.readStatus
      if status &&& bits = 0 then pure () else awaitClear bus bits looks

def take (bus : Bus World) : Action World UInt8 := do
  let value ← Action.ofStep bus.readReceived
  pure value.toUInt8

def receive (bus : Bus World) : Action World UInt8 := do
  awaitClear bus nothingReceived (bus.patience + 1)
  take bus

def transmit (bus : Bus World) (byte : UInt8) : Action World Unit := do
  awaitClear bus transmitterFull (bus.patience + 1)
  Action.ofStep fun world => ((), bus.writeTransmit byte.toUInt32 world)

def drain (bus : Bus World) : (slots : Nat) → Action World (List UInt8)
  | 0 => pure []
  | slots + 1 => do
      let status ← bus.readStatus
      if status &&& nothingReceived = 0 then
        let byte ← take bus
        let rest ← drain bus slots
        pure (byte :: rest)
      else pure []

/-- Waits for a byte, unless there is nowhere to put one, and takes along what else has
been received. -/
def read (bus : Bus World) : (slots : Nat) → Action World (List UInt8)
  | 0 => pure []
  | slots + 1 => do
      let first ← receive bus
      let rest ← drain bus slots
      pure (first :: rest)

def transmitAll (bus : Bus World) : List UInt8 → Action World Unit
  | [] => pure ()
  | byte :: rest => do
      transmit bus byte
      transmitAll bus rest

def write (bus : Bus World) (bytes : List UInt8) : Action World Nat := do
  transmitAll bus bytes
  pure bytes.length

def port (bus : Bus World) : Port World where
  read slots := do
    let bytes ← read bus slots
    pure (some bytes)
  write bytes := do
    let count ← write bus bytes
    pure (some count)
  flush := pure true
  supply := bus.supply

end TriggerBench.SoftCore.Uart
