import TriggerBench.Packet

/-! All bytes through the first zero belong to one unit, whatever they hold. -/

namespace TriggerBench.StuffedFrame

def verdict (stuffed : List UInt8) : Verdict :=
  if stuffed.isEmpty then .skipped
  else if frameCapacity < stuffed.length then .rejected (.ofViolation .payloadTooLong)
  else
    match Stuffing.decode? stuffed with
    | none => .rejected (.ofViolation .malformedBlock)
    | some packet =>
        match CommandPacket.read packet with
        | .ok frame => .frame frame
        | .error reason => .rejected reason

def examine (staged : List UInt8) : Option Examined :=
  let stuffed := staged.takeWhile (· != 0)
  if stuffed.length < staged.length then
    some { verdict := verdict stuffed, released := stuffed.length + 1 }
  else none

example :
    examine [0x00, 0x02] = some { verdict := .skipped, released := 1 } := by
  decide +kernel

example :
    (examine [0x02, 0x31, 0x04, 0x01, 0x41, 0x0B, 0x00]).map (·.released) =
      some 7 := by decide +kernel

example : examine [0x02, 0x31, 0x04] = none := by decide +kernel

end TriggerBench.StuffedFrame
