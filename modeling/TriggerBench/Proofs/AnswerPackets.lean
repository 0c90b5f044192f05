import TriggerBench.Proofs.Sequencing
import TriggerBench.Responder.Answer

/-! # Packets of an answer

An answer first settles what is to be sent, which is where the handler is called, and then
sends a list of packets. A property that sequences inherit from their parts is one of each
answer if the handlers and the sending calls have it.
-/

namespace TriggerBench

structure Packet where
  tag : UInt8
  data : List UInt8
  deriving DecidableEq, Repr

variable {World : Type}

def Protocol.sendPackets (protocol : Protocol) (port : Port World) :
    List Packet → Activity World Unit
  | [] => pure ()
  | packet :: rest => do
      protocol.send port packet.tag packet.data
      protocol.sendPackets port rest

def Protocol.acknowledgement (protocol : Protocol) (answer : Answer) : List Packet :=
  (answer.reply.payload.map fun payload =>
    { tag := replyTag, data := payload.bytes }).toList ++
    (protocol.acknowledgementTag?.map fun tag => { tag, data := [answer.status] }).toList

def Protocol.rejection (protocol : Protocol) (reason : Rejection) : List Packet :=
  (protocol.rejectionTag?.map fun tag => { tag, data := [reason.code] }).toList

theorem Protocol.rejectionTag?_of_isText {protocol : Protocol}
    (text : protocol.isText = true) :
    protocol.rejectionTag? = none := by
  cases protocol with
  | v1_0 => rfl
  | v1_1 => rfl
  | v2_1 => cases text

namespace Responder

theorem reject_eq (responder : Responder World) (port : Port World) (reason : Rejection) :
    responder.reject port reason =
      (responder.protocol.sendPackets port (responder.protocol.rejection reason) >>=
        fun _ => pure (.rejected reason)) := by
  rw [reject, Protocol.rejection]
  cases responder.protocol.rejectionTag? with
  | none => rfl
  | some tag => simp [Protocol.sendPackets]

private theorem acknowledge_eq (responder : Responder World) (port : Port World)
    (command : UInt8) (answer : Answer) :
    responder.acknowledge port command answer =
      (responder.protocol.sendPackets port (responder.protocol.acknowledgement answer) >>=
        fun _ => pure (.handled command answer.status)) := by
  rw [acknowledge, Protocol.acknowledgement]
  cases answer.reply.payload with
  | none =>
      cases responder.protocol.acknowledgementTag? with
      | none => rfl
      | some tag => simp [Protocol.sendPackets]
  | some payload =>
      cases responder.protocol.acknowledgementTag? with
      | none => simp [Protocol.sendPackets]
      | some tag => simp [Protocol.sendPackets]

/-- Settles what a received frame comes to and which packets tell the host. Only this
calls a handler. -/
def settle (responder : Responder World) :
    Received → Activity World (List Packet × Outcome)
  | .dropped reason => pure (responder.protocol.rejection reason, .rejected reason)
  | .frame frame =>
      match responder.table.find? frame.command with
      | some entry =>
          if entry.length != frame.payload.length then
            pure (responder.protocol.rejection .length, .rejected .length)
          else do
            let answer ← Activity.ofAction (entry.handler frame.request .empty)
            pure (responder.protocol.acknowledgement answer,
              .handled frame.command answer.status)
      | none =>
          if responder.answersVersion && frame.command == versionCommand then
            let answer := { status := responder.protocol.versionCode, reply := .empty }
            pure (responder.protocol.acknowledgement answer,
              .handled frame.command answer.status)
          else
            pure (responder.protocol.rejection (.unknownCommand frame.command),
              .rejected (.unknownCommand frame.command))

theorem settle_of_found {responder : Responder World} {frame : Frame}
    {entry : CommandEntry World}
    (found : responder.table.find? frame.command = some entry)
    (fits : entry.length = frame.payload.length) :
    responder.settle (.frame frame) =
      (Activity.ofAction (entry.handler frame.request .empty) >>= fun answer =>
        pure (responder.protocol.acknowledgement answer,
          .handled frame.command answer.status)) := by
  simp only [settle, found, fits, bne_self_eq_false, Bool.false_eq_true, if_false]

theorem answer_eq (responder : Responder World) (port : Port World)
    (received : Received) :
    responder.answer port received =
      (responder.settle received >>= fun settled =>
        responder.protocol.sendPackets port settled.1 >>= fun _ => pure settled.2) := by
  cases received with
  | dropped reason => exact responder.reject_eq port reason
  | frame frame =>
      simp only [answer, dispatch, settle]
      cases responder.table.find? frame.command with
      | some entry =>
          simp only
          split
          · exact responder.reject_eq port _
          · simp only [acknowledge_eq, bind_assoc, pure_bind]
      | none =>
          simp only
          split
          · exact responder.acknowledge_eq port _ _
          · exact responder.reject_eq port _

end Responder

/-! ## Properties of sending and answering -/

structure Port.Sends (port : Port World)
    (holds : ∀ {Reason Result : Type}, EStateM Reason World Result → Prop) : Prop where
  write : ∀ bytes, holds (port.write bytes)
  flush : holds port.flush

namespace Compositional

variable {holds : ∀ {Reason Result : Type}, EStateM Reason World Result → Prop}
  {port : Port World} (compositional : Compositional holds)
include compositional

theorem settle (responder : Responder World)
    (handlers : ∀ entry ∈ responder.table.entries, ∀ request reply,
      holds (entry.handler request reply))
    (received : Received) : holds (responder.settle received) := by
  cases received with
  | dropped reason => exact compositional.pure _
  | frame frame =>
      simp only [Responder.settle]
      cases found : responder.table.find? frame.command with
      | none =>
          simp only
          split <;> exact compositional.pure _
      | some entry =>
          simp only
          split
          · exact compositional.pure _
          · have member : entry ∈ responder.table.entries :=
              List.mem_of_find?_eq_some found
            exact compositional.bind (compositional.ofAction (handlers entry member _ _))
              fun _ => compositional.pure _

variable (sends : port.Sends holds)
include sends

theorem writeAllWithin (calls : Nat) (bytes : List UInt8) :
    holds (port.writeAllWithin calls bytes) := by
  induction calls generalizing bytes with
  | zero =>
      cases bytes with
      | nil => exact compositional.pure true
      | cons byte rest => exact compositional.throw _
  | succ calls induction =>
      cases bytes with
      | nil => exact compositional.pure true
      | cons byte rest =>
          apply compositional.bind (sends.write _)
          intro written
          match written with
          | none => exact compositional.pure false
          | some 0 => exact compositional.throw _
          | some (accepted + 1) => exact induction _

theorem sendAll (bytes : List UInt8) : holds (port.sendAll bytes) := by
  apply compositional.bind
    (compositional.ofAction (compositional.writeAllWithin sends _ bytes))
  intro sent
  cases sent with
  | true => exact compositional.pure ()
  | false => exact compositional.throw _

theorem sendPieces (pieces : List (List UInt8)) : holds (port.sendPieces pieces) := by
  induction pieces with
  | nil => exact compositional.pure ()
  | cons piece rest induction =>
      exact compositional.bind (compositional.sendAll sends piece) fun _ => induction

theorem finish : holds port.finish := by
  apply compositional.bind (compositional.ofAction sends.flush)
  intro flushed
  cases flushed with
  | true => exact compositional.pure ()
  | false => exact compositional.throw _

theorem send (protocol : Protocol) (tag : UInt8) (data : List UInt8) :
    holds (protocol.send port tag data) := by
  unfold Protocol.send
  cases protocol.pieces tag data with
  | error interruption => exact compositional.throw interruption
  | ok pieces =>
      exact compositional.bind (compositional.sendPieces sends pieces) fun _ =>
        compositional.finish sends

theorem sendPackets (protocol : Protocol) (packets : List Packet) :
    holds (protocol.sendPackets port packets) := by
  induction packets with
  | nil => exact compositional.pure ()
  | cons packet rest induction =>
      exact compositional.bind (compositional.send sends protocol _ _) fun _ => induction

/-- An answer has a property as soon as settling it and the port's sending have it. -/
theorem answer {responder : Responder World} {received : Received}
    (settles : holds (responder.settle received)) :
    holds (responder.answer port received) := by
  rw [Responder.answer_eq]
  exact compositional.bind settles fun settled =>
    compositional.bind (compositional.sendPackets sends _ settled.1) fun _ =>
    compositional.pure _

end Compositional

end TriggerBench
