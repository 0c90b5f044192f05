import TriggerBench.Protocol

/-! What a rig is built to do. -/

namespace TriggerBench

inductive Mode
  /-- Measures once, with a payload made up for it, and stops. -/
  | singleShot
  /-- Serves the run command over the serial line for ever. -/
  | serialLoop
  deriving DecidableEq, Repr

/-- What the skip flag stands for; the names say what happens while it is clear. -/
inductive Polarity
  /-- Commands are served, and a set flag measures once instead. -/
  | loopByDefault
  /-- One measurement is made, and a set flag serves commands instead. -/
  | singleShotByDefault
  deriving DecidableEq, Repr

def Polarity.mode : Polarity → (skipFlag : Bool) → Mode
  | loopByDefault, false => .serialLoop
  | loopByDefault, true => .singleShot
  | singleShotByDefault, false => .singleShot
  | singleShotByDefault, true => .serialLoop

structure Settings where
  polarity : Polarity
  skipFlag : Bool
  debug : Bool
  protocol : Protocol
  command : UInt8
  payloadLength : Nat
  sentinel : UInt8
  deriving DecidableEq, Repr

structure Features where
  singleShot : Bool
  stuffedPackets : Bool
  plainLines : Bool
  skipFlag : Bool
  debugPrint : Bool
  deriving DecidableEq, Repr

def Features.usual : Features where
  singleShot := false
  stuffedPackets := false
  plainLines := false
  skipFlag := false
  debugPrint := true

namespace Settings

def usual : Settings where
  polarity := .loopByDefault
  skipFlag := false
  debug := true
  protocol := .v1_1
  command := '1'.toUInt8
  payloadLength := 1
  sentinel := 'A'.toUInt8

def ofFeatures (features : Features) : Settings :=
  { usual with
    polarity := if features.singleShot then .singleShotByDefault else .loopByDefault
    skipFlag := features.skipFlag
    debug := features.debugPrint
    protocol := if features.stuffedPackets then .v2_1 else if features.plainLines then
      .v1_0 else .v1_1 }

def withSkipFlag (settings : Settings) (skipFlag : Bool) : Settings :=
  { settings with skipFlag }

def mode (settings : Settings) : Mode :=
  settings.polarity.mode settings.skipFlag

example : ofFeatures .usual = usual := by decide

example :
    usual.mode = .serialLoop ∧ (usual.withSkipFlag true).mode = .singleShot := by decide

end Settings

end TriggerBench
