import TriggerBench.Frame
import TriggerBench.Hex

/-! A text frame is a command byte, two hexadecimal digits for each payload byte, and a
terminator. Whether the digits are digits is only asked once the frame has ended where
it should. -/

namespace TriggerBench.TextFrame

def isTerminator (byte : UInt8) : Bool :=
  byte == '\n'.toUInt8 || byte == '\r'.toUInt8

structure Body where
  payload : Payload
  valid : Bool
  deriving DecidableEq, Repr

namespace Body

def empty : Body where
  payload := .empty
  valid := true

def add (body : Body) (high low : UInt8) : Body :=
  match (Hex.decode? high low).bind body.payload.push? with
  | some payload => { body with payload }
  | none => { body with valid := false }

def close (body : Body) (byte : UInt8) : Except Rejection Payload :=
  if !isTerminator byte then .error .missingTerminator
  else if !body.valid then .error .invalidHex
  else .ok body.payload

end Body

/-- Reads `due` more payload bytes and the terminator: the outcome and how many bytes were
walked over, or nothing when the bytes run out first. -/
def readBody? (body : Body) :
    (due : Nat) → List UInt8 → Option (Except Rejection Payload × Nat)
  | _, [] => none
  | 0, byte :: _ => some (body.close byte, 1)
  | due + 1, high :: rest =>
      if isTerminator high then some (.error .earlyTerminator, 1)
      else
        match rest with
        | [] => none
        | low :: rest =>
            if isTerminator low then some (.error .earlyTerminator, 2)
            else (readBody? (body.add high low) due rest).map fun (outcome, walked) =>
              (outcome, walked + 2)

def verdict (command : UInt8) : Except Rejection Payload → Verdict
  | .ok payload => .frame { command, subcommand := 0, payload }
  | .error reason => .rejected reason

/-- Looks for a unit at the start of the staged bytes; `expectedLength` is the payload
length of each command that is known. An unknown command costs one byte. -/
def examine (expectedLength : UInt8 → Option Nat) : List UInt8 → Option Examined
  | [] => none
  | command :: rest =>
      match expectedLength command with
      | none => some { verdict := .rejected (.unknownCommand command), released := 1 }
      | some length =>
          (readBody? .empty length rest).map fun (outcome, walked) =>
            { verdict := verdict command outcome, released := walked + 1 }

end TriggerBench.TextFrame
