import TriggerBench.Proofs.AnswerPackets
import TriggerBench.Proofs.Answering
import TriggerBench.Proofs.Registrations
import TriggerBench.Rig

/-! # The run command

A rig serves the run command and nothing else. What becomes of anything that is received
follows from the settings, apart from how the measurement goes that the run command is
for.
-/

namespace TriggerBench

variable {World : Type}

def Protocol.outcomePackets (protocol : Protocol) : Outcome → List Packet
  | .handled _ status => protocol.acknowledgement { status, reply := .empty }
  | .rejected reason => protocol.rejection reason

theorem Protocol.outcomePackets_isShort (protocol : Protocol) (outcome : Outcome) :
    ∀ packet ∈ protocol.outcomePackets outcome, packet.IsShort := by
  cases outcome with
  | handled command status => exact protocol.acknowledgement_isShort _
  | rejected reason => exact protocol.rejection_isShort reason

namespace Settings

def printed (settings : Settings) (message : List UInt8) : List UInt8 :=
  if settings.debug then message else []

def IsRun (settings : Settings) (received : Received) : Prop :=
  ∃ frame : Frame, received = .frame frame ∧ frame.command = settings.command ∧
    frame.payload.length = settings.payloadLength

def outcome (settings : Settings) : Received → Outcome
  | .dropped reason => .rejected reason
  | .frame frame =>
      if frame.command = settings.command then
        if frame.payload.length = settings.payloadLength then
          .handled settings.command Status.ok.code
        else .rejected .length
      else .rejected (.unknownCommand frame.command)

variable {settings : Settings} {received : Received}

theorem outcome_of_isRun (isRun : settings.IsRun received) :
    settings.outcome received = .handled settings.command Status.ok.code := by
  rcases isRun with ⟨frame, rfl, isCommand, isLength⟩
  rw [outcome, if_pos isCommand, if_pos isLength]

theorem outcome_of_not_isRun (other : ¬settings.IsRun received) :
    ∃ reason, settings.outcome received = .rejected reason := by
  cases received with
  | dropped reason => exact ⟨reason, rfl⟩
  | frame frame =>
      by_cases isCommand : frame.command = settings.command
      · have misfits : frame.payload.length ≠ settings.payloadLength :=
          fun isLength => other ⟨frame, rfl, isCommand, isLength⟩
        exact ⟨.length, by rw [outcome, if_pos isCommand, if_neg misfits]⟩
      · exact ⟨.unknownCommand frame.command, by rw [outcome, if_neg isCommand]⟩

end Settings

def Settings.plainResponder (settings : Settings) : Responder Unit where
  protocol := settings.protocol
  table :=
    { entries :=
        [{ command := settings.command
           length := settings.payloadLength
           handler := fun _ reply => pure { status := Status.ok.code, reply } }] }
  answersVersion := false

namespace Rig

variable {rig : Rig World}

def runResponder (rig : Rig World) : Responder World where
  protocol := rig.settings.protocol
  table :=
    { entries :=
        [{ command := rig.settings.command
           length := rig.settings.payloadLength
           handler := rig.measurement.handler }] }
  answersVersion := false

private theorem register_runResponder (fits : rig.settings.payloadLength ≤ maxPayload) :
    (CommandTable.empty : CommandTable World).register
      { command := rig.settings.command
        length := rig.settings.payloadLength
        handler := rig.measurement.handler } = .ok rig.runResponder.table := by
  rw [CommandTable.register, if_neg (Nat.not_lt.mpr fits)]
  rfl

theorem responder_of_fits (fits : rig.settings.payloadLength ≤ maxPayload) :
    rig.responder = .ok rig.runResponder :=
  congrArg (Except.map _) (register_runResponder fits)

theorem built_runResponder (fits : rig.settings.payloadLength ≤ maxPayload) :
    rig.runResponder.table.Built :=
  .registered .empty (register_runResponder fits)

theorem find?_runResponder {command : UInt8}
    (isCommand : command = rig.settings.command) :
    rig.runResponder.table.find? command =
      some
        { command := rig.settings.command
          length := rig.settings.payloadLength
          handler := rig.measurement.handler } := by
  simp [CommandTable.find?, runResponder, isCommand]

theorem command_of_found {command : UInt8} {entry : CommandEntry World}
    (found : rig.runResponder.table.find? command = some entry) :
    command = rig.settings.command ∧ entry.length = rig.settings.payloadLength := by
  have member := List.mem_of_find?_eq_some found
  have isCommand := List.find?_some found
  rw [runResponder, List.mem_singleton] at member
  rw [member] at isCommand ⊢
  exact ⟨(beq_iff_eq.mp isCommand).symm, rfl⟩

theorem responder_of_long (long : maxPayload < rig.settings.payloadLength) :
    rig.responder = .error .payloadTooLong := by
  rw [responder, Responder.register, CommandTable.register, if_pos long]
  rfl

theorem expectedLength_runResponder (rig : Rig World) :
    rig.runResponder.expectedLength = rig.settings.plainResponder.expectedLength := by
  funext command
  cases isCommand : rig.settings.command == command <;>
    simp [Responder.expectedLength, CommandTable.find?, runResponder,
      Settings.plainResponder, isCommand]

/-- Which units come in a stream follows from the settings alone. -/
theorem next?_runResponder (rig : Rig World) (capacity : Nat) (stream : List UInt8) :
    rig.runResponder.next? capacity stream =
      rig.settings.plainResponder.next? capacity stream := by
  have sameLengths := rig.expectedLength_runResponder
  simp only [Responder.next?, Responder.trim, Responder.examine, sameLengths]
  rfl

section Run

variable {frame : Frame} {world after : World}
  (isCommand : frame.command = rig.settings.command)
  (isLength : frame.payload.length = rig.settings.payloadLength)
include isCommand isLength

/-- The run command is settled by a measurement. -/
theorem settle_of_run :
    rig.runResponder.settle (.frame frame) =
      (Activity.ofAction (rig.measurement.measure frame.payload.bytes) >>= fun status =>
        pure (rig.settings.protocol.outcomePackets
          (.handled rig.settings.command status.code),
          .handled rig.settings.command status.code)) := by
  rw [Responder.settle_of_found (find?_runResponder isCommand) isLength.symm]
  funext world
  cases measured : rig.measurement.measure frame.payload.bytes world with
  | ok status after =>
      have handled : rig.measurement.handler frame.request .empty world =
          .ok { status := status.code, reply := .empty } after := by
        have ran : rig.measurement.measure frame.request.payload world = _ := measured
        rw [Measurement.handler, bind_of_ok ran]
        rfl
      rw [bind_of_ok (ofAction_of_ok handled),
        bind_of_ok (ofAction_of_ok measured), isCommand]
      rfl
  | error stop after =>
      have handled : rig.measurement.handler frame.request .empty world =
          .error stop after := by
        have ran : rig.measurement.measure frame.request.payload world = _ := measured
        rw [Measurement.handler, bind_of_error ran]
      rw [bind_of_error (ofAction_of_error handled),
        bind_of_error (ofAction_of_error measured)]

theorem settle_of_measured {status : Status}
    (measured : rig.measurement.measure frame.payload.bytes world = .ok status after) :
    rig.runResponder.settle (.frame frame) world =
      .ok (rig.settings.protocol.outcomePackets
        (.handled rig.settings.command status.code),
        .handled rig.settings.command status.code) after := by
  rw [settle_of_run isCommand isLength, bind_of_ok (ofAction_of_ok measured)]
  rfl

theorem settle_of_broken {stop : Stop}
    (measured : rig.measurement.measure frame.payload.bytes world = .error stop after) :
    rig.runResponder.settle (.frame frame) world = .error (.stopped stop) after := by
  rw [settle_of_run isCommand isLength, bind_of_error (ofAction_of_error measured)]

end Run

/-- Anything else is settled without a measurement, and rejected. -/
theorem settle_of_rejected {received : Received} {reason : Rejection}
    (rejected : rig.settings.outcome received = .rejected reason) :
    rig.runResponder.settle received =
      pure (rig.settings.protocol.outcomePackets (.rejected reason),
        .rejected reason) := by
  cases received with
  | dropped dropped =>
      cases rejected
      rfl
  | frame frame =>
      simp only [Settings.outcome] at rejected
      split at rejected
      case isTrue isCommand =>
          split at rejected
          case isTrue => cases rejected
          case isFalse misfits =>
              cases rejected
              have differ : rig.settings.payloadLength ≠ frame.payload.length :=
                fun isLength => misfits isLength.symm
              simp only [Responder.settle, CommandTable.find?, runResponder, isCommand,
                List.find?_cons, beq_self_eq_true, bne_iff_ne.mpr differ, if_true]
              rfl
      case isFalse other =>
          cases rejected
          have differ : (rig.settings.command == frame.command) = false :=
            beq_eq_false_iff_ne.mpr fun isCommand => other isCommand.symm
          simp only [Responder.settle, CommandTable.find?, runResponder, List.find?_cons,
            differ, List.find?_nil, Bool.false_and, Bool.false_eq_true, if_false]
          rfl

end Rig

end TriggerBench
