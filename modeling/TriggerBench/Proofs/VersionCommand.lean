import TriggerBench.Proofs.Registrations
import TriggerBench.Proofs.Reporting

/-! # The version command

A responder that answers the version command on its own is held against one that has a
handler registered for it, with no payload. Poll by poll the two come to the same, but for
a version command with a payload: a packet that carries one is answered by the former and
dropped by the latter.
-/

namespace TriggerBench

open Simulation

variable {Memory : Type} {capacity : Nat}

/-! ## What sending does apart from the log -/

namespace Simulation.Bench

variable {Reason Result Next : Type}

def Alike (first second : EStateM Reason (Bench Memory) Result) : Prop :=
  ∀ left right, left.cleared = right.cleared →
    changed cleared (first left) = changed cleared (second right)

namespace Alike

theorem pure (result : Result) :
    Alike (pure result : EStateM Reason (Bench Memory) Result) (pure result) :=
  fun _ _ same => congrArg (EStateM.Result.ok result) same

theorem throw (reason : Reason) :
    Alike (throw reason : EStateM Reason (Bench Memory) Result) (throw reason) :=
  fun _ _ same => congrArg (EStateM.Result.error reason) same

theorem bind {first second : EStateM Reason (Bench Memory) Result}
    {next other : Result → EStateM Reason (Bench Memory) Next}
    (alike : Alike first second)
    (nextAlike : ∀ result, Alike (next result) (other result)) :
    Alike (first >>= next) (second >>= other) := by
  intro left right same
  have ran := alike left right same
  cases outcome : first left with
  | ok result after =>
      cases otherOutcome : second right with
      | ok otherResult otherAfter =>
          rw [outcome, otherOutcome] at ran
          simp only [changed, EStateM.Result.ok.injEq] at ran
          rcases ran with ⟨rfl, sameAfter⟩
          rw [bind_of_ok outcome, bind_of_ok otherOutcome]
          exact nextAlike result after otherAfter sameAfter
      | error reason otherAfter =>
          rw [outcome, otherOutcome] at ran
          cases ran
  | error reason after =>
      cases otherOutcome : second right with
      | ok otherResult otherAfter =>
          rw [outcome, otherOutcome] at ran
          cases ran
      | error otherReason otherAfter =>
          rw [outcome, otherOutcome] at ran
          simp only [changed, EStateM.Result.error.injEq] at ran
          rcases ran with ⟨rfl, sameAfter⟩
          rw [bind_of_error outcome, bind_of_error otherOutcome]
          exact congrArg (EStateM.Result.error reason) sameAfter

theorem ofAction {first second : Action (Bench Memory) Result}
    (alike : Alike first second) :
    Alike (Activity.ofAction first) (Activity.ofAction second) := by
  intro left right same
  have ran := alike left right same
  simp only [Activity.ofAction]
  cases outcome : first left <;> cases otherOutcome : second right <;>
    simp_all [changed]

end Alike

private theorem eq_of_cleared {left right : Bench Memory}
    (same : left.cleared = right.cleared) :
    left = { right with log := left.log } := by
  cases left
  cases right
  simpa [cleared] using same

/-- How many bytes a call of the line takes, and whether it fails, is a matter of how many
it is offered. -/
theorem writeLine_alike {bytes other : List UInt8}
    (sameLength : bytes.length = other.length) :
    Alike (writeLine bytes : Action (Bench Memory) _) (writeLine other) := by
  intro left right same
  rw [eq_of_cleared same]
  simp only [writeLine, Line.write, sameLength]
  cases right.line.acceptance right.line.writes right.line.accepted other.length <;>
    simp [changed, cleared, record]

private theorem writeAllWithin_alike (calls : Nat) {bytes other : List UInt8}
    (sameLength : bytes.length = other.length) :
    Alike ((port : Port (Bench Memory)).writeAllWithin calls bytes)
      (port.writeAllWithin calls other) := by
  induction calls generalizing bytes other with
  | zero =>
      cases bytes <;> cases other <;> simp at sameLength
      · exact .pure true
      · exact .throw _
  | succ calls induction =>
      cases bytes <;> cases other <;>
        simp only [List.length_nil, List.length_cons, reduceCtorEq] at sameLength
      · exact .pure true
      · refine .bind (writeLine_alike (by simpa using sameLength)) ?_
        intro written
        match written with
        | none => exact .pure false
        | some 0 => exact .throw _
        | some (accepted + 1) => exact induction (by simp; omega)

private theorem finish_alike : Alike (port : Port (Bench Memory)).finish port.finish := by
  refine .bind (.ofAction ?_) ?_
  · intro left right same
    rw [eq_of_cleared same]
    simp [port, flushLine, Line.flush, changed, cleared, record]
  · intro flushed
    cases flushed with
    | true => exact .pure ()
    | false => exact .throw _

/-- Two stuffed packets with as many bytes of data do the same to the line. -/
theorem sendPacket_alike {protocol : Protocol} (packets : protocol.isText = false)
    {packet other : Packet} (short : packet.IsShort)
    (sameLength : packet.data.length = other.data.length) :
    Alike (protocol.sendPackets (port : Port (Bench Memory)) [packet])
      (protocol.sendPackets port [other]) := by
  have otherShort : other.IsShort := by rwa [Packet.IsShort, ← sameLength]
  have sameForm : (protocol.form packet).length = (protocol.form other).length := by
    simp only [Protocol.form, packets, Bool.false_eq_true, if_false, List.length_append,
      ResponsePacket.length_encode_raw _ short,
      ResponsePacket.length_encode_raw _ otherShort, sameLength]
  have sendAlike : Alike ((port : Port (Bench Memory)).sendAll (protocol.form packet))
      (port.sendAll (protocol.form other)) := by
    simp only [Port.sendAll, Writer.writeAll, sameForm]
    refine .bind (.ofAction (writeAllWithin_alike _ sameForm)) ?_
    intro sent
    cases sent with
    | true => exact .pure ()
    | false => exact .throw _
  simp only [Protocol.sendPackets, Protocol.send, Protocol.pieces_of_packets packets
    short, Protocol.pieces_of_packets packets otherShort, Port.sendPieces]
  exact .bind (.bind (.bind sendAlike fun _ => .pure ()) fun _ => finish_alike)
    fun _ => .pure ()

end Simulation.Bench

private theorem Responder.afterSending_alike
    {sent otherSent : EStateM.Result Interruption (Bench Memory) Unit}
    (alike : changed Bench.cleared sent = changed Bench.cleared otherSent)
    (outcome other : Outcome) :
    (Poll.ofResult id (afterSending outcome sent)).2.cleared =
      (Poll.ofResult id (afterSending other otherSent)).2.cleared := by
  cases sent <;> cases otherSent <;>
    simp only [changed, reduceCtorEq, EStateM.Result.ok.injEq,
    EStateM.Result.error.injEq] at alike
  · exact alike.2
  · exact alike.2

/-- One more event in the log makes no difference to what is sent. -/
theorem Responder.afterSending_recorded (protocol : Protocol) (packets : List Packet)
    (outcome : Outcome) (bench : Bench Memory) (event : Event) :
    let ended :=
      Poll.ofResult id
        (afterSending outcome (protocol.sendPackets Bench.port packets bench))
    let other :=
      Poll.ofResult id (afterSending outcome
        (protocol.sendPackets Bench.port packets (bench.record event)))
    ended.2.cleared = other.2.cleared ∧ ended.1.result = other.1.result ∧
      ∃ later, ended.1.log = bench.log ++ later ∧
      other.1.log = bench.log ++ event :: later := by
  have sends : ∀ earlier,
      protocol.sendPackets Bench.port packets { bench with log := earlier } =
      changed (Bench.altered (Line.delivering bench.line.deliveries) earlier)
        (protocol.sendPackets Bench.port packets bench.cleared) := by
    intro earlier
    have isAltered : { bench with log := earlier } =
        bench.cleared.altered (Line.delivering bench.line.deliveries) earlier := by
      simp [Bench.altered, Bench.cleared, Line.delivering]
    rw [isAltered]
    exact (Commutes.compositional _).sendPackets
      (Bench.port_sendsThrough bench.line.deliveries earlier) protocol
      packets bench.cleared
  have unrecorded : protocol.sendPackets Bench.port packets bench = _ := sends bench.log
  have recorded : protocol.sendPackets Bench.port packets (bench.record event) = _ :=
    sends (bench.log ++ [event])
  rw [unrecorded, recorded]
  cases protocol.sendPackets Bench.port packets bench.cleared with
  | ok _ after => exact ⟨rfl, rfl, after.log, rfl, List.append_assoc ..⟩
  | error reason after => exact ⟨rfl, rfl, after.log, rfl, List.append_assoc ..⟩

def Simulation.Event.isCallOf (name : Nat) : Event → Bool
  | .called other _ _ => other == name
  | _ => false

def Poll.withoutCallsOf (name : Nat) (poll : Poll) : Poll where
  result := poll.result
  log := poll.log.filter fun event => !event.isCallOf name

/-! ## The two responders -/

def Packet.ofStatus (status : UInt8) : Packet where
  tag := 'e'.toUInt8
  data := [status]

private theorem Packet.isShort_ofStatus (status : UInt8) : (ofStatus status).IsShort := by
  simp [IsShort, ofStatus, maxPayload]

private theorem Packet.form_ofStatus (status : UInt8) :
    [ofStatus status].flatMap Protocol.v2_1.form =
      Stuffing.encode (ResponsePacket.raw 'e'.toUInt8 [status]) ++ [0] :=
  List.append_nil _

private theorem Protocol.eq_of_packets {protocol : Protocol}
    (packets : protocol.isText = false) : protocol = .v2_1 := by
  cases protocol with
  | v1_0 | v1_1 => cases packets
  | v2_1 => rfl

def Protocol.versionHandler (protocol : Protocol) : Handler Memory := fun _ reply =>
  pure { status := protocol.versionCode, reply }

def versionAnswer (protocol : Protocol) : Answer where
  status := protocol.versionCode
  reply := .empty

structure Poll.Diverges (line : Line) (poll other : Poll) : Prop where
  answered : poll.Tells line (.handled versionCommand 0x03)
    (Stuffing.encode (ResponsePacket.raw 'e'.toUInt8 [0x03]) ++ [0])
  dropped : other.Tells line (.rejected .length)
    (Stuffing.encode (ResponsePacket.raw 'e'.toUInt8 [0x04]) ++ [0])
  noCalls : poll.log.filter Event.isCall = [] ∧ other.log.filter Event.isCall = []

namespace Responder

def ReceivesLongVersion (responder : Responder (Bench Memory))
    (link : Link capacity (Bench Memory)) : Prop :=
  ∃ frame middle, responder.receive Bench.port (link.mapWorld Bench.cleared) =
      .ok (.frame frame) middle ∧
    frame.command = versionCommand ∧ frame.payload.bytes ≠ []

structure VersionPair (builtIn registered : Responder Memory) : Prop where
  protocol : registered.protocol = builtIn.protocol
  answers : builtIn.answersVersion = true
  unregistered : builtIn.table.find? versionCommand = none
  answersNot : registered.answersVersion = false
  found : ∀ command, registered.table.find? command =
    if versionCommand = command then
      some { command := versionCommand, length := 0,
             handler := builtIn.protocol.versionHandler }
    else builtIn.table.find? command

/-- One poll of each of the two, which agree but for the calls of the version handler,
unless they receive a version command with a payload. -/
structure Abreast (builtIn registered : Responder Memory)
    (left right : Link capacity (Bench Memory)) : Prop where
  same : (builtIn.attended.poll left).2.mapWorld Bench.cleared =
    (registered.attended.poll right).2.mapWorld Bench.cleared
  agrees : ¬builtIn.attended.ReceivesLongVersion left →
    (builtIn.attended.poll left).1.withoutCallsOf versionCommand.toNat =
      (registered.attended.poll right).1.withoutCallsOf versionCommand.toNat
  diverges : builtIn.attended.ReceivesLongVersion left → builtIn.protocol = .v2_1 ∧
      Poll.Diverges left.world.line (builtIn.attended.poll left).1
        (registered.attended.poll right).1

/-- A table with room takes the version command. -/
theorem versionPair_of_register {builtIn : Responder Memory}
    (answers : builtIn.answersVersion = true)
    (unregistered : builtIn.table.find? versionCommand = none)
    (room : builtIn.table.entries.length < maxCommands) :
    ∃ registered,
      ({ builtIn with answersVersion := false } : Responder Memory).register
        versionCommand 0 builtIn.protocol.versionHandler = .ok registered ∧
      VersionPair builtIn registered := by
  let entry : CommandEntry Memory :=
    { command := versionCommand, length := 0, handler := builtIn.protocol.versionHandler }
  have done : builtIn.table.register entry =
      .ok { entries := builtIn.table.entries ++ [entry] } := by
    simp [CommandTable.register, entry, unregistered, room]
  refine ⟨{ builtIn with
    answersVersion := false,
    table := { entries := builtIn.table.entries ++ [entry] } }, ?_, ?_⟩
  · simp only [register, entry] at done ⊢
    rw [done]
    rfl
  · exact ⟨rfl, answers, unregistered, rfl, CommandTable.find?_of_register done⟩

namespace VersionPair

variable {builtIn registered : Responder Memory} (pair : VersionPair builtIn registered)
include pair

private theorem find?_other {command : UInt8} (other : command ≠ versionCommand) :
    registered.attended.table.find? command = builtIn.attended.table.find? command := by
  rw [attended_find?, attended_find?, pair.found, if_neg (Ne.symm other)]

private theorem find?_version :
    builtIn.attended.table.find? versionCommand = none ∧
      registered.attended.table.find? versionCommand =
        some
          { command := versionCommand
            length := 0
            handler :=
              Bench.attended versionCommand.toNat builtIn.protocol.versionHandler } := by
  constructor
  · rw [attended_find?, pair.unregistered, Option.map_none]
  · rw [attended_find?, pair.found, if_pos rfl, Option.map_some]

private theorem attended_answers :
    builtIn.attended.answersVersion = true ∧ registered.attended.answersVersion = false :=
  ⟨pair.answers, pair.answersNot⟩

private theorem expectedLength_version :
    builtIn.attended.expectedLength versionCommand = some 0 := by
  simp [expectedLength, pair.find?_version.1, pair.attended_answers.1]

private theorem examine_eq (bytes : List UInt8) :
    registered.attended.examine bytes = builtIn.attended.examine bytes := by
  have sameLength : registered.attended.expectedLength =
      builtIn.attended.expectedLength := by
    funext command
    by_cases isVersion : command = versionCommand
    · rw [isVersion, pair.expectedLength_version]
      simp [expectedLength, pair.find?_version.2]
    · simp only [expectedLength, pair.find?_other isVersion,
        beq_eq_false_iff_ne.mpr isVersion, Bool.and_false]
  have sameProtocol : registered.attended.protocol = builtIn.attended.protocol :=
    pair.protocol
  simp only [examine, sameLength, sameProtocol]

/-! ## What a received frame comes to -/

private theorem settle_other {received : Received}
    (other : ∀ frame, received = .frame frame → frame.command ≠ versionCommand) :
    registered.attended.settle received = builtIn.attended.settle received := by
  have sameProtocol : registered.attended.protocol = builtIn.attended.protocol :=
    pair.protocol
  cases received with
  | dropped reason => simp only [settle, sameProtocol]
  | frame frame =>
      have notVersion := other frame rfl
      simp only [settle, sameProtocol, pair.find?_other notVersion,
        beq_eq_false_iff_ne.mpr notVersion, Bool.and_false]

private theorem settle_builtIn {frame : Frame}
    (isVersion : frame.command = versionCommand) :
    builtIn.attended.settle (.frame frame) =
      pure (builtIn.protocol.acknowledgement (versionAnswer builtIn.protocol),
        .handled versionCommand builtIn.protocol.versionCode) := by
  simp only [settle, isVersion, pair.find?_version.1, pair.attended_answers.1,
    beq_self_eq_true, Bool.and_self, if_true]
  rfl

private theorem settle_registered_long {frame : Frame}
    (isVersion : frame.command = versionCommand) (long : frame.payload.bytes ≠ []) :
    registered.attended.settle (.frame frame) =
      pure (builtIn.protocol.rejection .length, .rejected .length) := by
  have misfits : (0 != frame.payload.length) = true := by
    rw [bne_iff_ne]
    intro isEmpty
    exact long (List.length_eq_zero_iff.mp isEmpty.symm)
  have sameProtocol : registered.attended.protocol = builtIn.protocol := pair.protocol
  simp only [settle, isVersion, pair.find?_version.2, misfits, if_true, sameProtocol]

private theorem settle_registered {frame : Frame}
    (isVersion : frame.command = versionCommand) (empty : frame.payload.bytes = [])
    (bench : Bench Memory) :
    registered.attended.settle (.frame frame) bench =
      .ok (builtIn.protocol.acknowledgement (versionAnswer builtIn.protocol),
        .handled versionCommand builtIn.protocol.versionCode)
        (bench.record (.called versionCommand.toNat frame.request [])) := by
  have fits : 0 = frame.payload.length := by
    simp [Payload.length, empty]
  have found : registered.attended.table.find? frame.command = some _ :=
    isVersion ▸ pair.find?_version.2
  have handled : Bench.attended versionCommand.toNat builtIn.protocol.versionHandler
      frame.request .empty bench =
      .ok (versionAnswer builtIn.protocol)
        (bench.record (.called versionCommand.toNat frame.request [])) :=
    Bench.attended_run _ _ _ _ bench
  have sameProtocol : registered.attended.protocol = builtIn.protocol := pair.protocol
  rw [settle_of_found found fits, sameProtocol, isVersion]
  exact bind_of_ok (ofAction_of_ok handled)

/-- Unless it is a version command with a payload, what was received is answered in the
same way. -/
theorem answer_short {received : Received}
    (short : ∀ frame, received = .frame frame → frame.command = versionCommand →
      frame.payload.bytes = [])
    (bench : Bench Memory) :
    let ended := Poll.ofResult id (builtIn.attended.answer Bench.port received bench)
    let other := Poll.ofResult id (registered.attended.answer Bench.port received bench)
    ended.2.cleared = other.2.cleared ∧
      ended.1.withoutCallsOf versionCommand.toNat =
        other.1.withoutCallsOf versionCommand.toNat := by
  have sameProtocol : registered.attended.protocol = builtIn.attended.protocol :=
    pair.protocol
  by_cases isVersion : ∃ frame, received = .frame frame ∧ frame.command = versionCommand
  · rcases isVersion with ⟨frame, rfl, isVersion⟩
    have settledBuiltIn := congrFun (pair.settle_builtIn isVersion) bench
    have settledRegistered :=
      pair.settle_registered isVersion (short frame rfl isVersion) bench
    rw [answer_of_settled settledBuiltIn,
      answer_of_settled settledRegistered, sameProtocol]
    rcases afterSending_recorded builtIn.attended.protocol _ _ bench
      (.called versionCommand.toNat frame.request []) with
      ⟨sameBench, sameResult, later, logged, otherLogged⟩
    refine ⟨sameBench, ?_⟩
    simp only [Poll.withoutCallsOf, sameResult, logged, otherLogged, List.filter_append,
      List.filter_cons, Event.isCallOf, beq_self_eq_true, Bool.not_true,
      Bool.false_eq_true, if_false]
  · have other : ∀ frame, received = .frame frame → frame.command ≠ versionCommand :=
      fun frame isFrame known => isVersion ⟨frame, isFrame, known⟩
    simp only [answer_eq, pair.settle_other other, sameProtocol, and_self]

/-- A version command with a payload comes in a packet. -/
theorem isText_of_long {link after : Link capacity (Bench Memory)} {frame : Frame}
    (ran : builtIn.attended.receive Bench.port link = .ok (.frame frame) after)
    (isVersion : frame.command = versionCommand) (long : frame.payload.bytes ≠ []) :
    builtIn.attended.protocol.isText = false := by
  cases text : builtIn.attended.protocol.isText with
  | false => rfl
  | true =>
      rcases receive_comesOf ran with ⟨bytes, overflow | ⟨examined, found, handedOn⟩⟩
      · cases overflow
      · rw [examine, if_pos text] at found
        have expected := pair.expectedLength_version
        rw [← isVersion] at expected
        exact absurd (TextFrame.bytes_eq_nil_of_examine found
          (Verdict.eq_frame_of_received handedOn) expected) long

/-- A version command with a payload is answered by the one and dropped by the other, by
packets of the same length. -/
theorem answer_long (packets : builtIn.attended.protocol.isText = false) {frame : Frame}
    (isVersion : frame.command = versionCommand) (long : frame.payload.bytes ≠ [])
    {bench : Bench Memory} (onlyReads : ∀ event ∈ bench.log, event.isRead) :
    let ended :=
      Poll.ofResult id (builtIn.attended.answer Bench.port (.frame frame) bench)
    let other :=
      Poll.ofResult id (registered.attended.answer Bench.port (.frame frame) bench)
    ended.2.cleared = other.2.cleared ∧ Poll.Diverges bench.line ended.1 other.1 := by
  have isPacket : builtIn.protocol = .v2_1 := Protocol.eq_of_packets packets
  have revision : builtIn.attended.protocol = .v2_1 := isPacket
  have otherRevision : registered.attended.protocol = .v2_1 :=
    pair.protocol.trans isPacket
  have settles : builtIn.attended.settle (.frame frame) =
      pure ([.ofStatus 0x03], .handled versionCommand 0x03) := by
    rw [pair.settle_builtIn isVersion, isPacket]
    rfl
  have otherSettles : registered.attended.settle (.frame frame) =
      pure ([.ofStatus 0x04], .rejected .length) := by
    rw [pair.settle_registered_long isVersion long, isPacket]
    rfl
  have short : ∀ status, ∀ packet ∈ [Packet.ofStatus status], packet.IsShort := by
    simp [Packet.isShort_ofStatus]
  have unsent : Unsent bench.log := fun event member => .inl (onlyReads event member)
  rcases answer_uncalled_tells settles (short 0x03) unsent.acceptedBytes_eq with
    ⟨tells, _, transmitted, logged⟩
  rcases answer_uncalled_tells otherSettles (short 0x04) unsent.acceptedBytes_eq with
    ⟨otherTells, _, otherTransmitted, otherLogged⟩
  rw [revision, Packet.form_ofStatus] at tells
  rw [otherRevision, Packet.form_ofStatus] at otherTells
  refine ⟨?_, tells, otherTells,
    filter_isCall_of_sent logged onlyReads transmitted.sending,
    filter_isCall_of_sent otherLogged onlyReads otherTransmitted.sending⟩
  have alike : Bench.Alike
      (Protocol.v2_1.sendPackets (Bench.port : Port (Bench Memory)) [.ofStatus 0x03])
      (Protocol.v2_1.sendPackets Bench.port [.ofStatus 0x04]) :=
    Bench.sendPacket_alike rfl (Packet.isShort_ofStatus 0x03) rfl
  rw [answer_of_settled (congrFun settles bench),
    answer_of_settled (congrFun otherSettles bench), revision, otherRevision]
  exact afterSending_alike (alike bench bench rfl) _ _

/-! ## Polls of the two -/

/-- Only a version command with a payload is answered apart. -/
private theorem abreast_of_received {left right middle : Link capacity (Bench Memory)}
    {received : Received}
    (ran : builtIn.attended.receive Bench.port (left.mapWorld Bench.cleared) =
      .ok received middle)
    (otherRan : registered.attended.receive Bench.port (right.mapWorld Bench.cleared) =
      .ok received middle)
    (read : Bench.ReadFrom left.world.cleared middle.world) :
    Abreast builtIn registered left right := by
  have polled := poll_of_receive ran
  have otherPolled := poll_of_receive otherRan
  rw [Poll.ofResult_lift] at polled otherPolled
  by_cases long : ∃ frame, received = .frame frame ∧ frame.command = versionCommand ∧
      frame.payload.bytes ≠ []
  · rcases long with ⟨frame, rfl, isVersion, long⟩
    have packets := pair.isText_of_long ran isVersion long
    rcases pair.answer_long packets isVersion long read.onlyReads with
      ⟨sameBench, diverges⟩
    refine ⟨?_, ?_, ?_⟩
    · rw [polled, otherPolled]
      exact congrArg (Link.mk middle.staged) sameBench
    · exact fun noLong => absurd ⟨frame, middle, ran, isVersion, long⟩ noLong
    · rw [polled, otherPolled]
      exact fun _ =>
        ⟨Protocol.eq_of_packets packets, diverges.answered.of_readFrom read,
          diverges.dropped.of_readFrom read, diverges.noCalls⟩
  · have short : ∀ frame, received = .frame frame → frame.command = versionCommand →
        frame.payload.bytes = [] :=
      fun frame isFrame isVersion => Classical.not_not.mp fun nonempty =>
        long ⟨frame, isFrame, isVersion, nonempty⟩
    rcases pair.answer_short short middle.world with ⟨sameBench, agrees⟩
    refine ⟨?_, ?_, ?_⟩
    · rw [polled, otherPolled]
      exact congrArg (Link.mk middle.staged) sameBench
    · rw [polled, otherPolled]
      exact fun _ => agrees
    · rintro ⟨frame, other, frameRan, isVersion, nonempty⟩
      cases ran.symm.trans frameRan
      exact absurd (short frame rfl isVersion) nonempty

private theorem poll_abreast {left right : Link capacity (Bench Memory)}
    (same : left.mapWorld Bench.cleared = right.mapWorld Bench.cleared)
    (wellFormed : left.staged.WellFormed) :
    Abreast builtIn registered left right := by
  have startWellFormed : (left.mapWorld Bench.cleared).staged.WellFormed := wellFormed
  have reception := builtIn.attended.receive_onBench startWellFormed
  have sameReception :
      registered.attended.receive Bench.port (right.mapWorld Bench.cleared) =
      builtIn.attended.receive Bench.port (left.mapWorld Bench.cleared) := by
    rw [← same, receive_congr pair.examine_eq]
  generalize ran : builtIn.attended.receive Bench.port (left.mapWorld Bench.cleared) =
    result at reception sameReception
  cases reception with
  | @received received _ middle _ _ _ read =>
      exact pair.abreast_of_received ran sameReception read
  | @starved reason middle =>
      refine ⟨?_, ?_, ?_⟩
      · rw [poll_of_receive_error ran, poll_of_receive_error sameReception]
      · rw [poll_of_receive_error ran, poll_of_receive_error sameReception]
        exact fun _ => rfl
      · rintro ⟨frame, other, otherRan, _⟩
        cases ran.symm.trans otherRan

private theorem polls_same (times : Nat) {left right : Link capacity (Bench Memory)}
    (same : left.mapWorld Bench.cleared = right.mapWorld Bench.cleared)
    (wellFormed : left.staged.WellFormed) :
    (builtIn.attended.polls times left).2.mapWorld Bench.cleared =
        (registered.attended.polls times right).2.mapWorld Bench.cleared ∧
      (builtIn.attended.polls times left).2.staged.WellFormed := by
  induction times generalizing left right with
  | zero => exact ⟨same, wellFormed⟩
  | succ times induction =>
      exact induction (pair.poll_abreast same wellFormed).same
        (poll_keeps builtIn.attended_attends wellFormed).wellFormed

end VersionPair

/-- A responder that answers the version command on its own does what it would do with a
handler registered for the command, with no payload: poll by poll it comes to the same
outcome, calls the same other handlers and sends the same bytes, except for a poll that
receives a version command with a payload. Such a command comes in a packet; the responder
answers it, where with the handler it would drop it for its length. Behind such a poll,
too, the two stay the same. -/
theorem version_command_like_registered (builtIn : Responder Memory)
    (answers : builtIn.answersVersion = true)
    (unregistered : builtIn.table.find? versionCommand = none)
    (room : builtIn.table.entries.length < maxCommands) :
    ∃ registered,
      ({ builtIn with answersVersion := false } : Responder Memory).register
        versionCommand 0 builtIn.protocol.versionHandler = .ok registered ∧
      ∀ (link : Link capacity (Bench Memory)), link.staged.WellFormed → ∀ times,
        Abreast builtIn registered (builtIn.attended.polls times link).2
          (registered.attended.polls times link).2 := by
  rcases versionPair_of_register answers unregistered room with ⟨registered, done, pair⟩
  refine ⟨registered, done, ?_⟩
  intro link wellFormed times
  rcases pair.polls_same times (rfl : link.mapWorld Bench.cleared = _) wellFormed with
    ⟨same, stillWellFormed⟩
  exact pair.poll_abreast same stillWellFormed

def ofVersionOnly : Responder Unit :=
  (Responder.ofProtocol .v2_1).answeringVersion

/-- A link on which a version command comes without a payload, and then one with a payload
of one byte. -/
def askedForVersion : Link 8 (Bench Unit) :=
  .fresh
    { Bench.plain with
      line :=
        { Bench.plain.line with
          deliveries :=
            [.bytes [0x02, 0x76, 0x01, 0x02, 0x79, 0x00],
              .bytes [0x02, 0x76, 0x04, 0x01, 0x41, 0xBC, 0x00]] } }

theorem ofVersionOnly_like_registered :
    ofVersionOnly.answersVersion = true ∧
      ofVersionOnly.table.find? versionCommand = none ∧
      ofVersionOnly.table.entries.length < maxCommands ∧
      askedForVersion.staged.WellFormed ∧ ∃ registered,
        ({ ofVersionOnly with answersVersion := false } : Responder Unit).register
          versionCommand 0 ofVersionOnly.protocol.versionHandler = .ok registered ∧
        ∀ times,
        Abreast ofVersionOnly registered
          (ofVersionOnly.attended.polls times askedForVersion).2
          (registered.attended.polls times askedForVersion).2 := by
  have answers : ofVersionOnly.answersVersion = true := rfl
  have unregistered : ofVersionOnly.table.find? versionCommand = none := rfl
  have room : ofVersionOnly.table.entries.length < maxCommands := by decide
  have wellFormed : askedForVersion.staged.WellFormed := StagingBuffer.wellFormed_empty
  rcases version_command_like_registered ofVersionOnly answers unregistered room with
    ⟨registered, done, abreast⟩
  exact ⟨answers, unregistered, room, wellFormed, registered, done,
    abreast askedForVersion wellFormed⟩

/-- The second version command is answered although it has a payload, and dropped with the
handler. -/
theorem ofVersionOnly_diverges :
    ∃ registered,
      ({ ofVersionOnly with answersVersion := false } : Responder Unit).register
        versionCommand 0 ofVersionOnly.protocol.versionHandler = .ok registered ∧
      (ofVersionOnly.attended.polls 2 askedForVersion).1.map (·.result.toOption) =
        [some (.handled versionCommand 0x03), some (.handled versionCommand 0x03)] ∧
      (registered.attended.polls 2 askedForVersion).1.map (·.result.toOption) =
        [some (.handled versionCommand 0x03), some (.rejected .length)] := by
  refine ⟨_, rfl, ?_, ?_⟩
  · decide +kernel
  · decide +kernel

end Responder

end TriggerBench
