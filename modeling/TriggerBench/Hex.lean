/-! Bytes are written in capital digits and read from digits of either case. -/

namespace TriggerBench.Hex

def digit (value : UInt8) : UInt8 :=
  if value < 10 then '0'.toUInt8 + value else 'A'.toUInt8 + (value - 10)

def encode (byte : UInt8) : List UInt8 :=
  [digit (byte >>> 4), digit (byte &&& 0x0F)]

def value? (byte : UInt8) : Option UInt8 :=
  if '0'.toUInt8 ≤ byte ∧ byte ≤ '9'.toUInt8 then some (byte - '0'.toUInt8)
  else if 'A'.toUInt8 ≤ byte ∧ byte ≤ 'F'.toUInt8 then some (byte - 'A'.toUInt8 + 10)
  else if 'a'.toUInt8 ≤ byte ∧ byte ≤ 'f'.toUInt8 then some (byte - 'a'.toUInt8 + 10)
  else none

def decode? (high low : UInt8) : Option UInt8 :=
  match value? high, value? low with
  | some highValue, some lowValue => some ((highValue <<< 4) ||| lowValue)
  | _, _ => none

example : encode 0x7F = ['7'.toUInt8, 'F'.toUInt8] := by decide

example : decode? 'd'.toUInt8 'E'.toUInt8 = some 0xDE := by decide

example : decode? 'g'.toUInt8 '0'.toUInt8 = none := by decide

end TriggerBench.Hex
