import TriggerBench.Limits

/-! The bytes that one command or response carries. -/

namespace TriggerBench

structure Payload where
  bytes : List UInt8
  length_le : bytes.length ≤ maxPayload
  deriving DecidableEq, Repr

namespace Payload

def empty : Payload where
  bytes := []
  length_le := Nat.zero_le _

def ofList? (bytes : List UInt8) : Option Payload :=
  if fits : bytes.length ≤ maxPayload then some ⟨bytes, fits⟩ else none

def push? (payload : Payload) (byte : UInt8) : Option Payload :=
  ofList? (payload.bytes ++ [byte])

def length (payload : Payload) : Nat :=
  payload.bytes.length

end Payload

end TriggerBench
