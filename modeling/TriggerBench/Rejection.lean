/-! Why a received frame is dropped, with the codes that the host is told. -/

namespace TriggerBench

inductive Violation
  | stagingFull
  | malformedBlock
  | payloadTooLong
  deriving DecidableEq, Repr

inductive Rejection
  | unknownCommand (command : UInt8)
  | earlyTerminator
  | missingTerminator
  | invalidHex
  | framing
  /-- The checksum of a packet does not match its contents. -/
  | checksum
  /-- A frame does not have the length that it should have. -/
  | length
  /-- The staging buffer filled up without holding a frame. -/
  | overflow
  deriving DecidableEq, Repr

namespace Rejection

def code : Rejection → UInt8
  | unknownCommand _ => 0x01
  | checksum => 0x02
  | length | overflow => 0x04
  | earlyTerminator | missingTerminator | invalidHex | framing => 0x05

def ofViolation : Violation → Rejection
  | .stagingFull => overflow
  | .malformedBlock => framing
  | .payloadTooLong => length

end Rejection

inductive RegistrationError
  | full
  /-- The expected payload is longer than a payload may be. -/
  | payloadTooLong
  deriving DecidableEq, Repr

end TriggerBench
