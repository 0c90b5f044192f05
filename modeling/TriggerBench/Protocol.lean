/-! The first generation sends lines of text, the second stuffed packets. -/

namespace TriggerBench

inductive Protocol
  /-- Lines of text, without an acknowledgement. -/
  | v1_0
  /-- Lines of text, acknowledged. -/
  | v1_1
  /-- Stuffed packets, acknowledged. -/
  | v2_1
  deriving DecidableEq, Repr

namespace Protocol

def versionCode : Protocol → UInt8
  | v1_0 => 0
  | v1_1 => 1
  | v2_1 => 3

def isText : Protocol → Bool
  | v1_0 | v1_1 => true
  | v2_1 => false

def acknowledgementTag? : Protocol → Option UInt8
  | v1_0 => none
  | v1_1 => some 'z'.toUInt8
  | v2_1 => some 'e'.toUInt8

/-- The tag of the packet that reports a rejected frame, where there is one. Text
protocols drop bad frames silently. -/
def rejectionTag? : Protocol → Option UInt8
  | v1_0 | v1_1 => none
  | v2_1 => some 'e'.toUInt8

end Protocol

def replyTag : UInt8 := 'r'.toUInt8

def versionCommand : UInt8 := 'v'.toUInt8

end TriggerBench
