import TriggerBench.Payload
import TriggerBench.Rejection

namespace TriggerBench

structure Frame where
  command : UInt8
  subcommand : UInt8
  payload : Payload
  deriving DecidableEq, Repr

inductive Verdict
  | skipped
  | rejected (reason : Rejection)
  | frame (frame : Frame)
  deriving DecidableEq, Repr

/-- A verdict on the oldest staged bytes, and how many of them it uses up. -/
structure Examined where
  verdict : Verdict
  released : Nat
  deriving DecidableEq, Repr

end TriggerBench
