/-! The eight-bit cyclic redundancy check that ends a stuffed packet: the remainder of
the message, read most significant bit first and multiplied by the eighth power of `x`,
after division by `x⁸ + x⁶ + x³ + x² + 1`. -/

namespace TriggerBench

structure CheckParameters where
  width : Nat
  polynomial : UInt8
  initial : UInt8
  reflectsInput : Bool
  reflectsOutput : Bool
  finalMask : UInt8
  check : UInt8
  /-- What remains in the register after a message and its own checksum. -/
  residue : UInt8
  deriving DecidableEq, Repr

def packetCheck : CheckParameters where
  width := 8
  polynomial := 0x4D
  initial := 0x00
  reflectsInput := false
  reflectsOutput := false
  finalMask := 0x00
  check := 0xC3
  residue := 0x00

structure Checksum where
  register : UInt8 := packetCheck.initial
  deriving DecidableEq, Repr

namespace Checksum

def shift (register : UInt8) : UInt8 :=
  if register &&& 0x80 = 0 then register <<< 1
    else (register <<< 1) ^^^ packetCheck.polynomial

def absorb (register byte : UInt8) : UInt8 :=
  Nat.repeat shift packetCheck.width (register ^^^ byte)

def update (checksum : Checksum) (bytes : List UInt8) : Checksum :=
  { register := bytes.foldl absorb checksum.register }

def finish (checksum : Checksum) : UInt8 × Checksum :=
  (checksum.register ^^^ packetCheck.finalMask, {})

def ofBytes (bytes : List UInt8) : UInt8 :=
  (({} : Checksum).update bytes).finish.1

example :
    ofBytes ("123456789".toList.map Char.toUInt8) = packetCheck.check := by decide +kernel

example : ofBytes [0x31, 0x04, 0xB4] ≠ packetCheck.residue ∧
    ofBytes [0x31, 0x04, ofBytes [0x31, 0x04]] = packetCheck.residue := by decide +kernel

end Checksum

end TriggerBench
