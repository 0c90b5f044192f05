import TriggerBench.Action

/-! A port delivers and accepts bytes in portions of its own choosing. -/

namespace TriggerBench

structure Writer (World : Type) where
  /-- Offers bytes: how many were accepted, or nothing if the call failed. -/
  write : List UInt8 → Action World (Option Nat)

structure Port (World : Type) extends Writer World where
  /-- Asks for so many bytes or fewer: what came, or nothing if the call failed. -/
  read : Nat → Action World (Option (List UInt8))
  flush : Action World Bool
  /-- A bound on the reads that can still deliver something or fail. -/
  supply : World → Nat

namespace Writer

variable {World : Type}

def writeAllWithin (writer : Writer World) :
    (calls : Nat) → List UInt8 → Action World Bool
  | _, [] => pure true
  | 0, _ :: _ => throw .outOfTurns
  | calls + 1, byte :: rest => do
      match ← writer.write (byte :: rest) with
      | none => pure false
      | some 0 => throw (.fault .stalledWrite)
      | some accepted => writer.writeAllWithin calls ((byte :: rest).drop accepted)

def writeAll (writer : Writer World) (bytes : List UInt8) : Action World Bool :=
  writer.writeAllWithin bytes.length bytes

end Writer

end TriggerBench
