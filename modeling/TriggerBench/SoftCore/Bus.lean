import TriggerBench.Action

namespace TriggerBench.SoftCore

def nothingReceived : UInt32 := 0x1

def transmitterFull : UInt32 := 0x2

def triggerMask : UInt32 := 0x1

structure Bus (World : Type) where
  readStatus : Action World UInt32
  readReceived : World → UInt32 × World
  writeTransmit : UInt32 → World → World
  readOutput : World → UInt32 × World
  writeOutput : UInt32 → World → World
  /-- A bound on how often in a row the status register can be read. -/
  patience : Nat
  supply : World → Nat

end TriggerBench.SoftCore
