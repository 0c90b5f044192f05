import TriggerBench.Proofs.PacketBounds
import TriggerBench.Proofs.Registrations
import TriggerBench.Proofs.Ring
import TriggerBench.Proofs.TextBodies

/-! # Serving with every check spelt out

Some operations are only meant for arguments in a certain range: a position for a ring
with cells, an index for an array that is long enough, a claim for cells that are free, a
push for a payload that is not full, and a read for a region that is not empty. Below they
are carried out in a way that tells when an argument is not of that kind, and serving is
put together from them as it is from the operations proper. From a well-formed ring both
come to the same.
-/

namespace TriggerBench

inductive Hazard
  /-- A position was asked for in a ring without cells. -/
  | noPosition
  /-- An index or a bound lies outside of the array. -/
  | outOfRange
  /-- More bytes are claimed than there are free cells. -/
  | overclaim
  /-- A payload is full and is given another byte. -/
  | overfull
  /-- A read asks for nothing, or for more than there are free cells. -/
  | badRequest
  deriving DecidableEq, Repr

abbrev Checked (Result : Type) := Except Hazard Result

def Checked.need {Result : Type} (hazard : Hazard) : Option Result → Checked Result
  | some result => .ok result
  | none => .error hazard

abbrev Ran (State Result : Type) := EStateM.Result Interruption State Result

def Ran.after {State Result : Type} : Ran State Result → State
  | .ok _ after => after
  | .error _ after => after

open Checked (need)

variable {capacity : Nat} {World : Type}

/-! ## The ring -/

namespace StagingBuffer

def walkChecked (buffer : StagingBuffer capacity) : Checked (List UInt8) :=
  (List.range buffer.size).mapM fun offset => need .noPosition (buffer.byteAt? offset)

def roomChecked (buffer : StagingBuffer capacity) : Checked Region := do
  let region ← need .noPosition buffer.room?
  if region.first ≤ region.stop ∧ region.stop ≤ capacity then pure region
    else throw .outOfRange

def claimChecked (buffer : StagingBuffer capacity) (count : Nat) :
    Checked (StagingBuffer capacity) :=
  if count ≤ capacity - buffer.size then pure { buffer with size := buffer.size + count }
    else throw .overclaim

def releaseChecked (buffer : StagingBuffer capacity) (count : Nat) :
    Checked (StagingBuffer capacity) :=
  need .noPosition (buffer.release? ⟨count⟩)

private theorem mapM_need {Item Result : Type} (hazard : Hazard)
    (find : Item → Option Result) (items : List Item)
    (found : ∀ item ∈ items, (find item).isSome) :
    (items.mapM fun item => need hazard (find item)) = .ok (items.filterMap find) := by
  induction items with
  | nil => rfl
  | cons item rest induction =>
      rcases Option.isSome_iff_exists.mp (found item List.mem_cons_self) with
        ⟨result, isResult⟩
      have foundRest :=
        induction fun other member => found other (List.mem_cons_of_mem item member)
      rw [List.mapM_cons, foundRest, List.filterMap_cons, isResult]
      rfl

private theorem WellFormed.walkChecked_eq {buffer : StagingBuffer capacity}
    (wellFormed : buffer.WellFormed) :
    buffer.walkChecked = .ok buffer.toList := by
  apply mapM_need
  intro offset inSize
  have sizeLe := wellFormed.size_le
  rw [List.mem_range] at inSize
  simp [StagingBuffer.byteAt?, cell?_of_pos (show 0 < capacity by omega)]

private theorem WellFormed.roomChecked_eq {buffer : StagingBuffer capacity}
    (wellFormed : buffer.WellFormed) (notFull : buffer.isFull = false) {region : Region}
    (room : buffer.room? = some region) :
    buffer.roomChecked = .ok region := by
  rcases wellFormed.room? notFull with ⟨known, isRoom, _, positive, _, inRing, _⟩
  cases room.symm.trans isRoom
  have inOrder : region.first ≤ region.stop ∧ region.stop ≤ capacity := by
    simp only [Region.length] at positive inRing
    omega
  rw [roomChecked, room]
  exact if_pos inOrder

private theorem claimChecked_eq {buffer : StagingBuffer capacity} {count : Nat}
    (fits : count ≤ capacity - buffer.size) (sizeLe : buffer.size ≤ capacity) :
    buffer.claimChecked count = .ok (buffer.claim count) := by
  have unclamped : min (buffer.size + count) capacity = buffer.size + count := by omega
  rw [claimChecked, if_pos fits, claim, unclamped]
  rfl

example : (empty : StagingBuffer 0).roomChecked = .error .noPosition := rfl

example : (empty : StagingBuffer 2).claimChecked 3 = .error .overclaim := rfl

end StagingBuffer

/-! ## Text frames -/

namespace TextFrame

def Body.addChecked (body : Body) (high low : UInt8) : Checked Body :=
  match Hex.decode? high low with
  | some byte => do
      let payload ← need .overfull (body.payload.push? byte)
      pure { body with payload }
  | none => pure { body with valid := false }

def readBodyChecked (body : Body) :
    (due : Nat) → List UInt8 → Checked (Option (Except Rejection Payload × Nat))
  | _, [] => pure none
  | 0, byte :: _ => pure (some (body.close byte, 1))
  | due + 1, high :: rest =>
      if isTerminator high then pure (some (.error .earlyTerminator, 1))
      else
        match rest with
        | [] => pure none
        | low :: rest =>
            if isTerminator low then pure (some (.error .earlyTerminator, 2))
            else do
              let added ← body.addChecked high low
              let found? ← readBodyChecked added due rest
              pure (found?.map fun (outcome, walked) => (outcome, walked + 2))

def examineChecked (expectedLength : UInt8 → Option Nat) :
    List UInt8 → Checked (Option Examined)
  | [] => pure none
  | command :: rest =>
      match expectedLength command with
      | none =>
          pure (some { verdict := .rejected (.unknownCommand command), released := 1 })
      | some length => do
          let found? ← readBodyChecked .empty length rest
          pure (found?.map fun (outcome, walked) =>
            { verdict := verdict command outcome, released := walked + 1 })

private theorem Body.addChecked_eq {body : Body} (room : body.payload.length < maxPayload)
    (high low : UInt8) :
    body.addChecked high low = .ok (body.add high low) ∧
      (body.add high low).payload.length ≤ body.payload.length + 1 := by
  rw [addChecked, add]
  cases Hex.decode? high low with
  | none => exact ⟨rfl, Nat.le_succ _⟩
  | some byte =>
      have fits : (body.payload.bytes ++ [byte]).length ≤ maxPayload := by
        rw [List.length_append]
        exact room
      have pushed : body.payload.push? byte =
          some ⟨body.payload.bytes ++ [byte], fits⟩ := by
        rw [Payload.push?, Payload.ofList?, dif_pos fits]
      simp only [Option.bind_some, pushed]
      refine ⟨rfl, ?_⟩
      simp [Payload.length]

/-- A body has room for all bytes that are due, so that no push fails. -/
theorem readBodyChecked_eq {body : Body} {due : Nat}
    (room : body.payload.length + due ≤ maxPayload) (bytes : List UInt8) :
    readBodyChecked body due bytes = .ok (readBody? body due bytes) := by
  induction due generalizing body bytes with
  | zero => cases bytes <;> rfl
  | succ due induction =>
      match bytes with
      | [] => rfl
      | high :: rest =>
          simp only [readBodyChecked, readBody?]
          split
          case isTrue => rfl
          case isFalse =>
              match rest with
              | [] => rfl
              | low :: rest =>
                  simp only
                  split
                  case isTrue => rfl
                  case isFalse =>
                      rcases Body.addChecked_eq (show body.payload.length <
                        maxPayload by omega) high low with ⟨added, grown⟩
                      have roomLeft : (body.add high low).payload.length + due ≤
                          maxPayload := by omega
                      rw [added]
                      change (readBodyChecked (body.add high low) due rest >>= _) = _
                      rw [induction roomLeft rest]
                      rfl

private theorem examineChecked_eq {expectedLength : UInt8 → Option Nat}
    (bounded : ∀ command length, expectedLength command = some length →
      length ≤ maxPayload)
    (staged : List UInt8) :
    examineChecked expectedLength staged = .ok (examine expectedLength staged) := by
  cases staged with
  | nil => rfl
  | cons command rest =>
      simp only [examineChecked, examine]
      cases expected : expectedLength command with
      | none => rfl
      | some length =>
          have room : Body.empty.payload.length + length ≤ maxPayload := by
            rw [show Body.empty.payload.length = 0 from rfl, Nat.zero_add]
            exact bounded command length expected
          simp only [readBodyChecked_eq room]
          rfl

end TextFrame

/-! ## Stuffed frames -/

private theorem Stuffing.length_decodeFrom? {due : Nat} {zeroFollows : Bool}
    {stuffed message : List UInt8}
    (unstuffed : decodeFrom? due zeroFollows stuffed = some message) :
    message.length ≤ stuffed.length := by
  induction stuffed generalizing due zeroFollows message with
  | nil =>
      simp only [decodeFrom?] at unstuffed
      split at unstuffed
      · cases unstuffed
        exact Nat.le_refl _
      · cases unstuffed
  | cons byte rest induction =>
      cases due with
      | succ remaining =>
          simp only [decodeFrom?, Option.map_eq_some_iff] at unstuffed
          rcases unstuffed with ⟨behind, found, rfl⟩
          exact Nat.succ_le_succ (induction found)
      | zero =>
          simp only [decodeFrom?] at unstuffed
          split at unstuffed
          · rw [Option.map_eq_some_iff] at unstuffed
            rcases unstuffed with ⟨behind, found, rfl⟩
            exact Nat.succ_le_succ (induction found)
          · exact Nat.le_succ_of_le (induction unstuffed)

namespace CommandPacket

def pushEach (payload : Payload) : List UInt8 → Checked Payload
  | [] => pure payload
  | byte :: rest => do
      let longer ← need .overfull (payload.push? byte)
      pushEach longer rest

def readChecked : List UInt8 → Checked (Except Rejection Frame)
  | command :: subcommand :: length :: rest =>
      if maxPayload < length.toNat then pure (.error .length)
      else do
        let payload ← pushEach .empty (rest.take length.toNat)
        if payload.length < length.toNat then pure (.error .length)
        else
          match rest.drop length.toNat with
          | [checksum] =>
              if Checksum.ofBytes (command :: subcommand :: length :: payload.bytes) =
                  checksum then
                pure (.ok { command, subcommand, payload })
              else pure (.error .checksum)
          | _ => pure (.error .length)
  | _ => pure (.error .length)

private theorem pushEach_eq {payload : Payload} {bytes : List UInt8}
    (fits : (payload.bytes ++ bytes).length ≤ maxPayload) :
    pushEach payload bytes = .ok ⟨payload.bytes ++ bytes, fits⟩ := by
  induction bytes generalizing payload with
  | nil => simp [pushEach, pure, Except.pure]
  | cons byte rest induction =>
      have fitsOne : (payload.bytes ++ [byte]).length ≤ maxPayload := by
        simp only [List.length_append, List.length_cons, List.length_nil] at fits ⊢
        omega
      have pushed : payload.push? byte = some ⟨payload.bytes ++ [byte], fitsOne⟩ := by
        rw [Payload.push?, Payload.ofList?, dif_pos fitsOne]
      have fitsRest : (payload.bytes ++ [byte] ++ rest).length ≤ maxPayload := by
        rwa [List.append_assoc]
      have pushedRest := @induction ⟨payload.bytes ++ [byte], fitsOne⟩ fitsRest
      rw [pushEach, pushed]
      change pushEach _ rest = _
      rw [pushedRest]
      simp

private theorem readChecked_eq (packet : List UInt8) :
    readChecked packet = .ok (read packet) := by
  match packet with
  | [] | [_] | [_, _] => rfl
  | command :: subcommand :: length :: rest =>
      simp only [readChecked, read]
      split
      case isTrue => rfl
      case isFalse claimedLe =>
          have fits : (rest.take length.toNat).length ≤ maxPayload := by
            rw [List.length_take]
            omega
          have pushed : pushEach .empty (rest.take length.toNat) =
              .ok ⟨rest.take length.toNat, fits⟩ :=
            pushEach_eq fits
          rw [pushed, Payload.ofList?, dif_pos fits]
          change (if (rest.take length.toNat).length < length.toNat then _ else _) = _
          split
          case isTrue => rfl
          case isFalse =>
              generalize rest.drop length.toNat = behind
              rcases behind with _ | ⟨checksum, _ | ⟨other, others⟩⟩
              · rfl
              · simp only
                split <;> rfl
              · rfl

end CommandPacket

namespace StuffedFrame

def verdictChecked (stuffed : List UInt8) : Checked Verdict :=
  if stuffed.isEmpty then pure .skipped
  else if frameCapacity < stuffed.length then
    pure (.rejected (.ofViolation .payloadTooLong))
  else
    match Stuffing.decode? stuffed with
    | none => pure (.rejected (.ofViolation .malformedBlock))
    | some packet =>
        -- The packet is unstuffed in place and is a slice of the stuffed one.
        if stuffed.length < packet.length then throw .outOfRange
        else do
          match ← CommandPacket.readChecked packet with
          | .ok frame => pure (.frame frame)
          | .error reason => pure (.rejected reason)

def examineChecked (staged : List UInt8) : Checked (Option Examined) :=
  let stuffed := staged.takeWhile (· != 0)
  if stuffed.length < staged.length then do
    let found ← verdictChecked stuffed
    pure (some { verdict := found, released := stuffed.length + 1 })
  else pure none

private theorem verdictChecked_eq (stuffed : List UInt8) :
    verdictChecked stuffed = .ok (verdict stuffed) := by
  simp only [verdictChecked, verdict]
  split
  case isTrue => rfl
  case isFalse =>
      split
      case isTrue => rfl
      case isFalse =>
          cases unstuffed : Stuffing.decode? stuffed with
          | none => rfl
          | some packet =>
              have inPlace : ¬stuffed.length < packet.length :=
                Nat.not_lt.mpr (Stuffing.length_decodeFrom? unstuffed)
              simp only [if_neg inPlace, CommandPacket.readChecked_eq]
              cases CommandPacket.read packet <;> rfl

private theorem examineChecked_eq (staged : List UInt8) :
    examineChecked staged = .ok (examine staged) := by
  simp only [examineChecked, examine, verdictChecked_eq]
  split <;> rfl

end StuffedFrame

/-! ## Receiving -/

def Link.refillChecked (port : Port World) (link : Link capacity World) :
    Checked (Ran (Link capacity World) Unit) := do
  let region ← link.staged.roomChecked
  if 0 < region.length ∧ region.length ≤ capacity - link.staged.size then
    match port.read region.length link.world with
    | .ok (some (byte :: rest)) world => do
        let staged ← (link.staged.fill region (byte :: rest)).claimChecked
            (rest.length + 1)
        pure (.ok () { staged, world })
    | .ok (some []) world => pure (.error (.failed .endOfStream) { link with world })
    | .ok none world => pure (.error (.failed (.port .read)) { link with world })
    | .error stop world => pure (.error (.stopped stop) { link with world })
  else throw .badRequest

namespace Responder

def examineChecked (responder : Responder World) (staged : List UInt8) :
    Checked (Option Examined) :=
  if responder.protocol.isText then
    TextFrame.examineChecked responder.expectedLength staged
  else StuffedFrame.examineChecked staged

def turnChecked (responder : Responder World) (port : Port World)
    (link : Link capacity World) :
    Checked (Ran (Link capacity World) (Option Received)) := do
  match ← responder.examineChecked (← link.staged.walkChecked) with
  | some examined =>
      let staged ← link.staged.releaseChecked examined.released
      pure (.ok examined.verdict.received? { link with staged })
  | none =>
      if link.staged.isFull then
        pure (.ok (some (.dropped .overflow)) { link with staged := link.staged.discard })
      else
        match ← link.refillChecked port with
        | .ok () after => pure (.ok none after)
        | .error reason after => pure (.error reason after)

def receiveWithinChecked (responder : Responder World) (port : Port World) :
    (turns : Nat) → Link capacity World → Checked (Ran (Link capacity World) Received)
  | 0, link => pure (.error (.stopped .outOfTurns) link)
  | turns + 1, link => do
      match ← responder.turnChecked port link with
      | .ok (some received) after => pure (.ok received after)
      | .ok none after => responder.receiveWithinChecked port turns after
      | .error reason after => pure (.error reason after)

end Responder

private theorem Link.refillChecked_eq {port : Port World} (honest : port.Honest)
    {link : Link capacity World} (wellFormed : link.staged.WellFormed)
    (notFull : link.staged.isFull = false) :
    link.refillChecked port = .ok (Link.refill port link) := by
  rcases wellFormed.room? notFull with ⟨region, room, _, positive, inFree, _, _⟩
  rw [Link.refillChecked, wellFormed.roomChecked_eq notFull room]
  change (if 0 < region.length ∧
    region.length ≤ capacity - link.staged.size then _ else _) = _
  rw [if_pos ⟨positive, inFree⟩, Link.refill_run port room]
  cases read : port.read region.length link.world with
  | error stop world => rfl
  | ok delivered world =>
      match delivered with
      | none => rfl
      | some [] => rfl
      | some (byte :: rest) =>
          have inRegion : rest.length + 1 ≤ region.length := honest read
          have claimed := (link.staged.fill region (byte :: rest)).claimChecked_eq
            (Nat.le_trans inRegion inFree) wellFormed.size_le
          simp only [claimed]
          rfl

namespace Responder

def Bounded (responder : Responder World) : Prop :=
  ∀ command length, responder.expectedLength command = some length → length ≤ maxPayload

variable {responder : Responder World} {port : Port World} {link : Link capacity World}

private theorem examineChecked_eq (bounded : responder.Bounded) (staged : List UInt8) :
    responder.examineChecked staged = .ok (responder.examine staged) := by
  rw [examineChecked, examine]
  split
  · exact TextFrame.examineChecked_eq bounded staged
  · exact StuffedFrame.examineChecked_eq staged

private theorem turnChecked_eq (honest : port.Honest) (bounded : responder.Bounded)
    (wellFormed : link.staged.WellFormed) :
    responder.turnChecked port link = .ok (responder.turn port link) := by
  rw [turnChecked, wellFormed.walkChecked_eq]
  change (responder.examineChecked link.staged.toList >>= _) = _
  rw [examineChecked_eq bounded]
  cases found : responder.examine link.staged.toList with
  | some examined =>
      have bounds := examine_released found
      rw [wellFormed.length_toList] at bounds
      have sizeLe := wellFormed.size_le
      rcases wellFormed.release? (show 0 < capacity by omega) ⟨examined.released⟩ with
        ⟨staged, released, _⟩
      rw [turn_of_unit found, bind_of_ok (Link.release_run released)]
      change (link.staged.releaseChecked examined.released >>= _) = _
      rw [StagingBuffer.releaseChecked, released]
      rfl
  | none =>
      change (if link.staged.isFull = true then _ else _) = _
      cases full : link.staged.isFull with
      | true =>
          rw [turn_of_full found full]
          rfl
      | false =>
          simp only [Bool.false_eq_true, if_false]
          rw [turn_of_waiting found full, Link.refillChecked_eq honest wellFormed full]
          cases refilled : Link.refill port link with
          | ok result after =>
              rw [bind_of_ok refilled]
              rfl
          | error reason after =>
              rw [bind_of_error refilled]
              rfl

private theorem receiveWithinChecked_eq (honest : port.Honest)
    (bounded : responder.Bounded) (wellFormed : link.staged.WellFormed) (turns : Nat) :
    responder.receiveWithinChecked port turns link =
      .ok (responder.receiveWithin port turns link) := by
  induction turns generalizing link with
  | zero => rfl
  | succ turns induction =>
      rw [receiveWithinChecked, turnChecked_eq honest bounded wellFormed, receiveWithin]
      cases turned : responder.turn port link with
      | error reason after =>
          rw [bind_of_error turned]
          rfl
      | ok handedOn after =>
          rw [bind_of_ok turned]
          cases handedOn with
          | some received => rfl
          | none => exact induction (turn_keeps honest wellFormed turned)

end Responder

/-! ## Answering -/

namespace Hex

def digits : List UInt8 :=
  "0123456789ABCDEF".toList.map Char.toUInt8

def digitChecked (value : UInt8) : Checked UInt8 :=
  need .outOfRange digits[value.toNat]?

def encodeChecked (byte : UInt8) : Checked (List UInt8) := do
  let high ← digitChecked (byte >>> 4)
  let low ← digitChecked (byte &&& 0x0F)
  pure [high, low]

private theorem digitChecked_eq {value : UInt8} (small : value < 16) :
    digitChecked value = .ok (digit value) := by
  have known : ∀ value : Fin 16,
      digits[value.val]? = some (digit (.ofNat value.val)) := by decide +kernel
  have found : digits[value.toNat]? = some (digit value) := by
    simpa using known ⟨value.toNat, small⟩
  rw [digitChecked, found]
  rfl

private theorem encodeChecked_eq (byte : UInt8) :
    encodeChecked byte = .ok (encode byte) := by
  rw [encodeChecked, digitChecked_eq (halves_lt byte).1,
    digitChecked_eq (halves_lt byte).2]
  rfl

end Hex

def CommandTable.findChecked (table : CommandTable World) (command : UInt8) :
    Checked (Option (CommandEntry World)) :=
  match table.entries.findIdx? (·.command == command) with
  | some place => do
      let entry ← need .outOfRange table.entries[place]?
      pure (some entry)
  | none => pure none

private theorem CommandTable.findChecked_eq (table : CommandTable World)
    (command : UInt8) :
    table.findChecked command = .ok (table.find? command) := by
  rw [findChecked, find?]
  cases isPlace : table.entries.findIdx? (·.command == command) with
  | none =>
      rw [List.findIdx?_eq_none_iff] at isPlace
      rw [List.find?_eq_none.mpr (by simpa using isPlace)]
      rfl
  | some place =>
      rcases List.findIdx?_eq_some_iff_getElem.mp isPlace with
        ⟨inTable, isCommand, isFirst⟩
      have found : table.entries.find? (·.command == command) =
          some table.entries[place] :=
        List.find?_eq_some_iff_getElem.mpr ⟨isCommand, place, inTable,
          rfl, by simpa using isFirst⟩
      simp only [found, List.getElem?_eq_getElem inTable]
      rfl

namespace Protocol

def piecesChecked (protocol : Protocol) (tag : UInt8) (data : List UInt8) :
    Checked (Except Interruption (List (List UInt8))) :=
  if maxPayload < data.length then pure (.error (.failed .payloadTooLong))
  else if protocol.isText then do
    let digits ← data.mapM Hex.encodeChecked
    pure (.ok ([tag] :: digits ++ [['\n'.toUInt8]]))
  -- The checksum goes behind the tag, the length and the data.
  else if ResponsePacket.longestRaw ≤ data.length + 2 then throw .outOfRange
  else
    match ResponsePacket.stuffed tag data with
    | .error _ => pure (.error (.failed .payloadTooLong))
    | .ok form =>
        if form.length < ResponsePacket.cells then pure (.ok [form ++ [0]])
          else throw .outOfRange

def sendChecked (protocol : Protocol) (port : Port World) (packet : Packet)
    (world : World) : Checked (Ran World Unit) := do
  match ← protocol.piecesChecked packet.tag packet.data with
  | .error interruption => pure (.error interruption world)
  | .ok pieces => pure ((port.sendPieces pieces >>= fun _ => port.finish) world)

def sendPacketsChecked (protocol : Protocol) (port : Port World) :
    List Packet → World → Checked (Ran World Unit)
  | [], world => pure (.ok () world)
  | packet :: rest, world => do
      match ← protocol.sendChecked port packet world with
      | .ok () after => protocol.sendPacketsChecked port rest after
      | .error reason after => pure (.error reason after)

private theorem piecesChecked_eq (protocol : Protocol) (tag : UInt8) (data : List UInt8) :
    protocol.piecesChecked tag data = .ok (protocol.pieces tag data) := by
  rw [piecesChecked, pieces]
  split
  case isTrue => rfl
  case isFalse short =>
      rw [Nat.not_lt] at short
      split
      case isTrue =>
          have spelled : data.mapM Hex.encodeChecked = .ok (data.map Hex.encode) := by
            induction data with
            | nil => rfl
            | cons byte rest induction =>
                rw [List.mapM_cons, Hex.encodeChecked_eq,
                  induction (Nat.le_of_succ_le short)]
                rfl
          rw [spelled]
          rfl
      case isFalse =>
          have fits := ResponsePacket.fits tag short
          have inRaw : ¬ResponsePacket.longestRaw ≤ data.length + 2 := by
            simp only [ResponsePacket.longestRaw]
            omega
          simp only [if_neg inRaw, fits.rendered, if_pos fits.delimiterInCells]
          rfl

private theorem sendChecked_eq (protocol : Protocol) (port : Port World) (packet : Packet)
    (world : World) :
    protocol.sendChecked port packet world =
      .ok (protocol.send port packet.tag packet.data world) := by
  rw [sendChecked, piecesChecked_eq, send]
  cases protocol.pieces packet.tag packet.data <;> rfl

private theorem sendPacketsChecked_eq (protocol : Protocol) (port : Port World)
    (packets : List Packet) (world : World) :
    protocol.sendPacketsChecked port packets world =
      .ok (protocol.sendPackets port packets world) := by
  induction packets generalizing world with
  | nil => rfl
  | cons packet rest induction =>
      rw [sendPacketsChecked, sendChecked_eq, sendPackets]
      cases sent : protocol.send port packet.tag packet.data world with
      | ok _ after =>
          rw [bind_of_ok sent]
          exact induction after
      | error reason after =>
          rw [bind_of_error sent]
          rfl

end Protocol

namespace Responder

def lookUpChecked (responder : Responder World) : Received → Checked Unit
  | .frame frame => do
      let _ ← responder.table.findChecked frame.command
      pure ()
  | .dropped _ => pure ()

def answerChecked (responder : Responder World) (port : Port World) (received : Received)
    (world : World) : Checked (Ran World Outcome) := do
  responder.lookUpChecked received
  match responder.settle received world with
  | .error reason after => pure (.error reason after)
  | .ok (packets, outcome) settled =>
      match ← responder.protocol.sendPacketsChecked port packets settled with
      | .ok () after => pure (.ok outcome after)
      | .error reason after => pure (.error reason after)

def serveChecked (responder : Responder World) (port : Port World) (turns : Nat)
    (link : Link capacity World) : Checked (Ran (Link capacity World) Outcome) := do
  match ← responder.receiveWithinChecked port turns link with
  | .error reason after => pure (.error reason after)
  | .ok received middle =>
      match ← responder.answerChecked port received middle.world with
      | .ok outcome world => pure (.ok outcome { middle with world })
      | .error reason world => pure (.error reason { middle with world })

variable {responder : Responder World} {port : Port World} {link : Link capacity World}

private theorem lookUpChecked_eq (responder : Responder World) (received : Received) :
    responder.lookUpChecked received = .ok () := by
  cases received with
  | dropped reason => rfl
  | frame frame =>
      rw [lookUpChecked, CommandTable.findChecked_eq]
      rfl

private theorem answerChecked_eq (responder : Responder World) (port : Port World)
    (received : Received) (world : World) :
    responder.answerChecked port received world =
      .ok (responder.answer port received world) := by
  rw [answerChecked, lookUpChecked_eq]
  cases settled : responder.settle received world with
  | error reason after =>
      rw [answer_of_stopped settled]
      rfl
  | ok found middle =>
      rcases found with ⟨packets, outcome⟩
      rw [answer_of_settled settled]
      change (responder.protocol.sendPacketsChecked port packets middle >>= _) = _
      rw [Protocol.sendPacketsChecked_eq]
      cases responder.protocol.sendPackets port packets middle <;> rfl

def serveOneWithin (responder : Responder World) (port : Port World) (turns : Nat) :
    Activity (Link capacity World) Outcome := do
  let received ← responder.receiveWithin port turns
  Link.worldComponent.lift (responder.answer port received)

theorem serveOne_eq (responder : Responder World) (port : Port World)
    (link : Link capacity World) :
    responder.serveOne port link =
      responder.serveOneWithin port (link.turnBudget port) link := by
  rfl

theorem serveChecked_eq (honest : port.Honest) (bounded : responder.Bounded)
    (wellFormed : link.staged.WellFormed) (turns : Nat) :
    responder.serveChecked port turns link =
      .ok (responder.serveOneWithin port turns link) := by
  rw [serveChecked, receiveWithinChecked_eq honest bounded wellFormed, serveOneWithin]
  cases ran : responder.receiveWithin port turns link with
  | error reason after =>
      rw [bind_of_error ran]
      rfl
  | ok received middle =>
      rw [bind_of_ok ran]
      change (responder.answerChecked port received middle.world >>= _) = _
      simp only [answerChecked_eq, Component.lift, Link.worldComponent]
      cases responder.answer port received middle.world <;> rfl

end Responder

end TriggerBench
