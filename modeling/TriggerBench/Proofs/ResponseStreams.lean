import TriggerBench.Proofs.HexSpelling
import TriggerBench.Proofs.Transmission

/-! # Streams of response packets

What the host makes of the bytes that it receives. Stuffed packets it tells apart by the
zeros behind them. A line it reads from its tag on, since a tag may be any byte, also a
line feed or a digit. Either way it gets back the packets that were sent, in their order.
-/

namespace TriggerBench

namespace ResponsePacket

/-- Reads an unstuffed response packet. Its length byte has to account for all of its
data, and its last byte has to be the checksum of the bytes before. -/
def read? : List UInt8 → Option Packet
  | tag :: length :: rest =>
      if rest.length = length.toNat + 1 ∧
          rest.getLast? = some (Checksum.ofBytes (tag :: length :: rest.dropLast)) then
        some { tag, data := rest.dropLast }
      else none
  | _ => none

def readUnits? : List (List UInt8) → Option (List Packet)
  | [] => none
  | [behind] => if behind.isEmpty then some [] else none
  | unit :: next :: later =>
      match (Stuffing.decode? unit).bind read? with
      | some packet => (readUnits? (next :: later)).map (packet :: ·)
      | none => none

def readDigits? (high low : UInt8) : Option UInt8 :=
  if Hex.capital high = high ∧ Hex.capital low = low then Hex.decode? high low else none

inductive Begun
  | nothing
  | upTo (packet : Packet)
  /-- The tag, some data, and the first digit of another byte. -/
  | halfway (packet : Packet) (high : UInt8)
  deriving DecidableEq, Repr

def readLines? : Begun → List UInt8 → Option (List Packet)
  | .nothing, [] => some []
  | _, [] => none
  | .nothing, tag :: rest => readLines? (.upTo { tag, data := [] }) rest
  | .upTo packet, byte :: rest =>
      if byte = '\n'.toUInt8 then (readLines? .nothing rest).map (packet :: ·)
      else readLines? (.halfway packet byte) rest
  | .halfway packet high, low :: rest =>
      match readDigits? high low with
      | some byte => readLines? (.upTo { packet with data := packet.data ++ [byte] }) rest
      | none => none

end ResponsePacket

def Protocol.readStream? (protocol : Protocol) (stream : List UInt8) :
    Option (List Packet) :=
  if protocol.isText then ResponsePacket.readLines? .nothing stream
  else ResponsePacket.readUnits? (stream.splitOn 0)

namespace ResponsePacket

/-! ## Stuffed packets -/

private theorem read?_raw {packet : Packet} (short : packet.IsShort) :
    read? (raw packet.tag packet.data) = some packet := by
  have lengthValue : (UInt8.ofNat packet.data.length).toNat = packet.data.length := by
    apply UInt8.toNat_ofNat_of_lt'
    change packet.data.length < 256
    simp only [Packet.IsShort, maxPayload] at short
    omega
  simp [read?, raw, lengthValue]

private theorem readUnits?_cons {packet : Packet} (short : packet.IsShort)
    {units : List (List UInt8)} (more : units ≠ []) :
    readUnits? (Stuffing.encode (raw packet.tag packet.data) :: units) =
      (readUnits? units).map (packet :: ·) := by
  cases units with
  | nil => exact absurd rfl more
  | cons next later =>
      rw [readUnits?, Stuffing.decode?_encode, Option.bind_some, read?_raw short]

private theorem readUnits?_forms {packets : List Packet}
    (short : ∀ packet ∈ packets, packet.IsShort) :
    readUnits? ((packets.flatMap fun packet =>
      Stuffing.encode (raw packet.tag packet.data) ++ [0]).splitOn 0) = some packets := by
  induction packets with
  | nil => rfl
  | cons packet rest induction =>
      have noZero : (0 : UInt8) ∉ Stuffing.encode (raw packet.tag packet.data) :=
        fun member => Stuffing.zero_free_encode _ 0 member rfl
      rw [List.flatMap_cons, List.append_assoc, List.singleton_append,
        List.splitOn_append_cons_self_of_not_mem noZero,
        readUnits?_cons (short packet List.mem_cons_self) (List.splitOn_ne_nil _ _),
        induction fun other member => short other (List.mem_cons_of_mem packet member)]
      rfl

/-! ## Lines -/

private theorem readDigits?_encode (byte : UInt8) :
    ∃ high low, Hex.encode byte = [high, low] ∧ high ≠ '\n'.toUInt8 ∧
      readDigits? high low = some byte := by
  have known : ∀ byte : Fin 256, Hex.digit (UInt8.ofFin byte >>> 4) ≠ '\n'.toUInt8 ∧
      readDigits? (Hex.digit (UInt8.ofFin byte >>> 4))
        (Hex.digit (UInt8.ofFin byte &&& 0x0F)) = some (.ofFin byte) := by
    decide +kernel
  exact ⟨_, _, rfl, known byte.toFin⟩

private theorem readLines?_data (tag : UInt8) (before data rest : List UInt8) :
    readLines? (.upTo { tag, data := before }) (Hex.spell data ++ '\n'.toUInt8 :: rest) =
      (readLines? .nothing rest).map ({ tag, data := before ++ data } :: ·) := by
  induction data generalizing before with
  | nil =>
      rw [Hex.spell_nil, List.nil_append, readLines?, if_pos rfl, List.append_nil]
  | cons byte data induction =>
      rcases readDigits?_encode byte with ⟨high, low, spelled, notEnd, read⟩
      rw [Hex.spell_cons, spelled]
      simp only [List.cons_append, List.nil_append, readLines?, if_neg notEnd, read]
      rw [induction, List.append_assoc, List.singleton_append]

theorem flatten_line (tag : UInt8) (data : List UInt8) :
    (line tag data).flatten = tag :: (Hex.spell data ++ ['\n'.toUInt8]) := by
  simp [line, Hex.spell, List.flatMap]

private theorem readLines?_forms (packets : List Packet) :
    readLines? .nothing (packets.flatMap fun packet =>
      (line packet.tag packet.data).flatten) = some packets := by
  induction packets with
  | nil => rfl
  | cons packet rest induction =>
      rw [List.flatMap_cons, flatten_line, List.cons_append, List.append_assoc,
        List.singleton_append, readLines?, readLines?_data, induction]
      rfl

end ResponsePacket

/-- The host gets back the packets of any stream of their forms, whatever their tags and
data are. -/
theorem Protocol.readStream?_forms (protocol : Protocol) {packets : List Packet}
    (short : ∀ packet ∈ packets, packet.IsShort) :
    protocol.readStream? (packets.flatMap protocol.form) = some packets := by
  cases text : protocol.isText with
  | true =>
      have isForm : protocol.form =
          fun packet => (ResponsePacket.line packet.tag packet.data).flatten := by
        funext packet
        simp only [form, text, if_true]
      simp only [readStream?, text, if_true, isForm]
      exact ResponsePacket.readLines?_forms packets
  | false =>
      have isForm : protocol.form = fun packet =>
          Stuffing.encode (ResponsePacket.raw packet.tag packet.data) ++ [0] := by
        funext packet
        simp only [form, text, Bool.false_eq_true, if_false]
      simp only [readStream?, text, Bool.false_eq_true, if_false, isForm]
      exact ResponsePacket.readUnits?_forms short

end TriggerBench
