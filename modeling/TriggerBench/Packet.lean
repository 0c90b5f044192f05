import TriggerBench.Checksum
import TriggerBench.Frame
import TriggerBench.Hex
import TriggerBench.Stuffing

/-! A command packet is `[command, subcommand, length, data.., checksum]` before
stuffing, a response packet `[tag, length, data.., checksum]`; a text response is a tag,
digits and a line feed. -/

namespace TriggerBench

namespace CommandPacket

def write (frame : Frame) : List UInt8 :=
  let body := frame.command :: frame.subcommand :: UInt8.ofNat frame.payload.length ::
    frame.payload.bytes
  body ++ [Checksum.ofBytes body]

/-- Reads an unstuffed packet. Its own length byte has to account for all of it before its
checksum is looked at. -/
def read : List UInt8 → Except Rejection Frame
  | command :: subcommand :: length :: rest =>
      if maxPayload < length.toNat then .error .length
      else
        let data := rest.take length.toNat
        if data.length < length.toNat then .error .length
        else
          match Payload.ofList? data, rest.drop length.toNat with
          | some payload, [checksum] =>
              if Checksum.ofBytes (command :: subcommand :: length :: data) =
                  checksum then
                .ok { command, subcommand, payload }
              else .error .checksum
          | _, _ => .error .length
  | _ => .error .length

example :
    (read [0x31, 0x00, 0x01, 0x41, 0x0B]).toOption.map (·.payload.bytes) =
      some [0x41] := by decide +kernel

example : (read [0x31, 0x00, 0x02, 0x41, 0x0B]).toOption = none := by decide +kernel

end CommandPacket

namespace ResponsePacket

def raw (tag : UInt8) (data : List UInt8) : List UInt8 :=
  let body := tag :: UInt8.ofNat data.length :: data
  body ++ [Checksum.ofBytes body]

def longestRaw : Nat := maxPayload + 3

def longestStuffed : Nat := longestRaw + longestRaw / 254 + 1

def cells : Nat := longestStuffed + 1

def stuffed (tag : UInt8) (data : List UInt8) : Except Violation (List UInt8) :=
  if maxPayload < data.length then .error .malformedBlock
  else
    let form := Stuffing.encode (raw tag data)
    if cells < form.length then .error .malformedBlock else .ok form

def line (tag : UInt8) (data : List UInt8) : List (List UInt8) :=
  [tag] :: data.map Hex.encode ++ [['\n'.toUInt8]]

example :
    (stuffed 'e'.toUInt8 [0x00]).toOption = some [0x03, 0x65, 0x01, 0x02, 0xEB] := by
  decide +kernel

example :
    (line 'r'.toUInt8 [0xDE, 0xAD]).flatten = "rDEAD\n".toList.map Char.toUInt8 := by
  decide

end ResponsePacket

end TriggerBench
