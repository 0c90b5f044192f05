import TriggerBench.Responder.Receive

/-! The reply of a handler is sent ahead of the packet that carries its status. Sending
ends with the first call of the port that fails. -/

namespace TriggerBench

namespace Port

variable {World : Type}

def sendAll (port : Port World) (bytes : List UInt8) : Activity World Unit := do
  if ← Activity.ofAction (port.writeAll bytes) then pure ()
    else throw (.failed (.port .write))

def sendPieces (port : Port World) : List (List UInt8) → Activity World Unit
  | [] => pure ()
  | piece :: rest => do
      port.sendAll piece
      port.sendPieces rest

def finish (port : Port World) : Activity World Unit := do
  if ← Activity.ofAction port.flush then pure () else throw (.failed (.port .flush))

end Port

namespace Protocol

variable {World : Type}

def pieces (protocol : Protocol) (tag : UInt8) (data : List UInt8) :
    Except Interruption (List (List UInt8)) :=
  if maxPayload < data.length then .error (.failed .payloadTooLong)
  else if protocol.isText then .ok (ResponsePacket.line tag data)
  else
    match ResponsePacket.stuffed tag data with
    | .error _ => .error (.failed .payloadTooLong)
    | .ok stuffed =>
        if stuffed.length < ResponsePacket.cells then .ok [stuffed ++ [0]]
        else .error (.stopped (.fault .outOfCells))

def send (protocol : Protocol) (port : Port World) (tag : UInt8) (data : List UInt8) :
    Activity World Unit :=
  match protocol.pieces tag data with
  | .error interruption => throw interruption
  | .ok pieces => do
      port.sendPieces pieces
      port.finish

end Protocol

namespace Responder

variable {World : Type}

def reject (responder : Responder World) (port : Port World) (reason : Rejection) :
    Activity World Outcome := do
  match responder.protocol.rejectionTag? with
  | some tag => responder.protocol.send port tag [reason.code]
  | none => pure ()
  pure (.rejected reason)

def acknowledge (responder : Responder World) (port : Port World) (command : UInt8)
    (answer : Answer) : Activity World Outcome := do
  match answer.reply.payload with
  | some payload => responder.protocol.send port replyTag payload.bytes
  | none => pure ()
  match responder.protocol.acknowledgementTag? with
  | some tag => responder.protocol.send port tag [answer.status]
  | none => pure ()
  pure (.handled command answer.status)

def dispatch (responder : Responder World) (port : Port World) (frame : Frame) :
    Activity World Outcome :=
  match responder.table.find? frame.command with
  | some entry =>
      if entry.length != frame.payload.length then responder.reject port .length
      else do
        let answer ← Activity.ofAction (entry.handler frame.request .empty)
        responder.acknowledge port frame.command answer
  | none =>
      if responder.answersVersion && frame.command == versionCommand then
        responder.acknowledge port frame.command
          { status := responder.protocol.versionCode, reply := .empty }
      else responder.reject port (.unknownCommand frame.command)

def answer (responder : Responder World) (port : Port World) :
    Received → Activity World Outcome
  | .frame frame => responder.dispatch port frame
  | .dropped reason => responder.reject port reason

end Responder

end TriggerBench
