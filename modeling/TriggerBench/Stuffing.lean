/-! A stuffed message is a chain of blocks without a zero. A block stands for its
literals and one zero, except that the last block and a block of 254 literals stand for
their literals alone. -/

namespace TriggerBench.Stuffing

def longestBlock : Nat := 254

def closeBlock (literals : List UInt8) : List UInt8 :=
  UInt8.ofNat (literals.length + 1) :: literals

def encodeFrom (literals : List UInt8) : List UInt8 → List UInt8
  | [] => closeBlock literals
  | byte :: rest =>
      if byte = 0 then
        closeBlock literals ++ encodeFrom [] rest
      else if literals.length + 1 = longestBlock then
        closeBlock (literals ++ [byte]) ++ encodeFrom [] rest
      else
        encodeFrom (literals ++ [byte]) rest

def encode (message : List UInt8) : List UInt8 :=
  encodeFrom [] message

/-- Unstuffs the rest of a chain: `due` literals of the current block are still to come,
and `zeroFollows` when a zero stands between the current block and a next one. -/
def decodeFrom? (due : Nat) (zeroFollows : Bool) : List UInt8 → Option (List UInt8)
  | [] => if due = 0 then some [] else none
  | byte :: rest =>
      match due with
      | remaining + 1 => (decodeFrom? remaining zeroFollows rest).map (byte :: ·)
      | 0 =>
          let next := decodeFrom? (byte.toNat - 1) (byte != 0xFF) rest
          if zeroFollows then next.map (0 :: ·) else next

def decode? (stuffed : List UInt8) : Option (List UInt8) :=
  decodeFrom? 0 false stuffed

example : encode [0x31, 0x04, 0x00, 0x41] = [0x03, 0x31, 0x04, 0x02, 0x41] := by decide

example :
    decode? [0x03, 0x31, 0x04, 0x02, 0x41] = some [0x31, 0x04, 0x00, 0x41] := by decide

example : encode [] = [0x01] ∧ encode [0] = [0x01, 0x01] := by decide

example : decode? [0x04, 0x31, 0x04] = none := by decide

end TriggerBench.Stuffing
