import Mathlib.Data.List.Forall2
import TriggerBench.Proofs.Reporting
import TriggerBench.Proofs.ResponseStreams
import TriggerBench.Simulation.ScriptedHandler

/-! # Conversations

A conversation is a sequence of polls and of packets that are sent besides. As long as no
call of the port that sends fails, the host can tell from the bytes which packets were
sent, and these are the packets that the outcomes of the calls stand for.
-/

namespace TriggerBench

open Simulation

variable {Memory : Type} {capacity : Nat}

/-! ## Replies -/

/-- What a handler does about a request: the data that it tries to queue in turn, the
status that it answers with unless it stops, and what it remembers. -/
structure Conduct (Memory : Type) where
  attempts : List (List UInt8)
  status : Except Stop UInt8
  memory : Memory

namespace Conduct

/-- A handler that queues replies. Whether data is accepted is a matter of its length
alone, so a handler knows beforehand what becomes of its attempts. -/
def handler (conduct : Request → Memory → Conduct Memory) :
    Handler Memory := fun request reply memory =>
  match (conduct request memory).status with
  | .ok status =>
      .ok { status, reply := (queueEach reply (conduct request memory).attempts).1 }
        (conduct request memory).memory
  | .error stop => .error stop (conduct request memory).memory

def lastAccepted? (conduct : Conduct Memory) : Option (List UInt8) :=
  (conduct.attempts.filter fun data => data.length ≤ maxPayload).getLast?

end Conduct

private theorem queueEach_payload (reply : Reply) (attempts : List (List UInt8)) :
    (queueEach reply attempts).1.payload.map Payload.bytes =
      ((attempts.filter fun data => data.length ≤ maxPayload).getLast?).or
        (reply.payload.map Payload.bytes) := by
  induction attempts generalizing reply with
  | nil => simp [queueEach]
  | cons data rest induction =>
      simp only [queueEach, induction]
      by_cases short : data.length ≤ maxPayload
      · simp [Reply.send, Payload.ofList?, short, List.getLast?_cons, Option.or_some]
      · simp [Reply.send, Payload.ofList?, short]

private theorem Conduct.reply_of_handler {conduct : Request → Memory → Conduct Memory}
    {request : Request} {before memory : Memory} {answer : Answer}
    (answered : Conduct.handler conduct request .empty before = .ok answer memory) :
    answer.reply.payload.map Payload.bytes = (conduct request before).lastAccepted? := by
  simp only [handler] at answered
  split at answered
  case h_1 =>
      cases answered
      rw [queueEach_payload, lastAccepted?]
      exact Option.or_none
  case h_2 => cases answered

/-! ## Calls and what they come to -/

inductive Call
  | poll
  | put (packet : Packet)
  deriving DecidableEq, Repr

inductive Report (Memory : Type)
  | polled (before : Memory) (poll : Poll)
  | put (packet : Packet) (result : Except Interruption Unit) (log : List Event)

def Report.log : Report Memory → List Event
  | .polled _ poll => poll.log
  | .put _ _ log => log

def Report.bytes (report : Report Memory) : List UInt8 :=
  acceptedBytes report.log

namespace Protocol

def statusPackets : Protocol → UInt8 → List Packet
  | .v1_0, _ => []
  | .v1_1, status => [{ tag := 'z'.toUInt8, data := [status] }]
  | .v2_1, status => [{ tag := 'e'.toUInt8, data := [status] }]

def rejectionPackets : Protocol → Rejection → List Packet
  | .v1_0, _ | .v1_1, _ => []
  | .v2_1, reason => [{ tag := 'e'.toUInt8, data := [reason.code] }]

private theorem acknowledgement_eq (protocol : Protocol) (answer : Answer) :
    protocol.acknowledgement answer =
      ((answer.reply.payload.map Payload.bytes).toList.map fun data =>
        { tag := 'r'.toUInt8, data }) ++ protocol.statusPackets answer.status := by
  rcases answer with ⟨status, ⟨payload⟩⟩
  cases protocol <;> cases payload <;> rfl

private theorem rejection_eq (protocol : Protocol) (reason : Rejection) :
    protocol.rejection reason = protocol.rejectionPackets reason := by
  cases protocol <;> rfl

end Protocol

namespace Responder

def call (responder : Responder (Bench Memory)) (link : Link capacity (Bench Memory)) :
    Call → Report Memory × Link capacity (Bench Memory)
  | .poll => (.polled link.world.memory (responder.poll link).1, (responder.poll link).2)
  | .put packet =>
      match Link.worldComponent.lift (responder.protocol.send Bench.port packet.tag
        packet.data) (link.mapWorld Bench.cleared) with
      | .ok () after => (.put packet (.ok ()) after.world.log, after)
      | .error reason after => (.put packet (.error reason) after.world.log, after)

def calls (responder : Responder (Bench Memory)) :
    List Call → Link capacity (Bench Memory) →
      List (Report Memory) × Link capacity (Bench Memory)
  | [], link => ([], link)
  | first :: later, link =>
      let (report, after) := responder.call link first
      let (reports, final) := responder.calls later after
      (report :: reports, final)

/-- The packets that a call sends, as far as its outcome says so. -/
inductive Told (responder : Responder Memory) : Report Memory → List Packet → Prop
  | put {packet log} (short : packet.data.length ≤ maxPayload) :
      Told responder (.put packet (.ok ()) log) [packet]
  | refused {packet log} (long : maxPayload < packet.data.length) :
      Told responder (.put packet (.error (.failed .payloadTooLong)) log) []
  /-- A handler's reply is sent ahead of its status. It is what the handler was last able
  to queue. -/
  | handled {before log entry request answer memory reply}
      (called : log.filter Event.isCall = [.called request.command.toNat request []])
      (found : responder.table.find? request.command = some entry)
      (answered : entry.handler request .empty before = .ok answer memory)
      (isReply : answer.reply.payload.map Payload.bytes = reply)
      (queued : ∀ conduct, entry.handler request .empty before = Conduct.handler conduct
        request .empty before → reply = (conduct request before).lastAccepted?) :
      Told responder
        (.polled before { result := .ok (.handled request.command answer.status), log })
        ((reply.toList.map fun data => { tag := 'r'.toUInt8, data }) ++
          responder.protocol.statusPackets answer.status)
  | version {before log} (uncalled : log.filter Event.isCall = [])
      (unregistered : responder.table.find? versionCommand = none)
      (answers : responder.answersVersion = true) :
      Told responder
        (.polled before
          { result := .ok (.handled versionCommand responder.protocol.versionCode), log })
        (responder.protocol.statusPackets responder.protocol.versionCode)
  | rejected {before log reason} (uncalled : log.filter Event.isCall = []) :
      Told responder (.polled before { result := .ok (.rejected reason), log })
        (responder.protocol.rejectionPackets reason)
  /-- A poll that a read ends, or in which a handler stops, tells the host nothing. -/
  | unanswered {before log reason}
      (cause : reason = .failed (.port .read) ∨ reason = .failed .endOfStream ∨
        ∃ stop, reason = .stopped stop) :
      Told responder (.polled before { result := .error reason, log }) []

def Conveys (responder : Responder Memory) (report : Report Memory) : Prop :=
  ∃ packets, responder.Told report packets ∧ (∀ packet ∈ packets, packet.IsShort) ∧
    report.bytes = packets.flatMap responder.protocol.form

structure Passes (responder : Responder Memory) (report : Report Memory)
    (after : Link capacity (Bench Memory)) : Prop where
  conveys : responder.Conveys report
  wellFormed : after.staged.WellFormed
  faultless : after.world.line.Faultless

/-! ## One call -/

section Answering

variable {responder : Responder Memory} {bench : Bench Memory}
  (onlyReads : ∀ event ∈ bench.log, event.isRead) (faultless : bench.line.Faultless)
include onlyReads faultless

/-- What is settled without a handler is conveyed in full. -/
theorem answer_uncalled_conveys {received : Received} {packets : List Packet}
    {outcome : Outcome}
    (settles : responder.attended.settle received = pure (packets, outcome))
    (short : ∀ packet ∈ packets, packet.IsShort)
    (told : ∀ log, log.filter Event.isCall = [] →
      responder.Told (.polled bench.memory { result := .ok outcome, log }) packets) :
    responder.Conveys
      (.polled bench.memory
        (Poll.ofResult id (responder.attended.answer Bench.port received bench)).1) := by
  have unsent : Unsent bench.log := fun event member => .inl (onlyReads event member)
  rcases answer_uncalled_tells settles short unsent.acceptedBytes_eq with
    ⟨tells, events, transmitted, logged⟩
  generalize Poll.ofResult id (responder.attended.answer Bench.port received bench) =
    ended at tells transmitted logged ⊢
  rcases ended with ⟨⟨_, log⟩, after⟩
  rcases tells.of_faultless faultless with ⟨result, sent⟩
  cases result
  exact ⟨packets, told log (filter_isCall_of_sent logged onlyReads transmitted.sending),
    short, sent⟩

private theorem answer_rejected_conveys {received : Received} {reason : Rejection}
    (settles : responder.attended.settle received =
      pure (responder.protocol.rejection reason, .rejected reason)) :
    responder.Conveys
      (.polled bench.memory
        (Poll.ofResult id (responder.attended.answer Bench.port received bench)).1) := by
  have short := Protocol.rejection_isShort responder.protocol reason
  rw [Protocol.rejection_eq] at settles short
  exact answer_uncalled_conveys onlyReads faultless settles short fun _ uncalled =>
    .rejected uncalled

/-- A frame that has a handler is conveyed unless the handler stops, and then nothing is
sent. -/
theorem answer_called_conveys {frame : Frame} {entry : CommandEntry Memory}
    (found : responder.table.find? frame.command = some entry)
    (fits : entry.length = frame.payload.length) :
    responder.Conveys
      (.polled bench.memory
        (Poll.ofResult id (responder.attended.answer Bench.port (.frame frame)
          bench)).1) := by
  have known := attended_of_found found
  cases handled : entry.handler frame.request .empty bench.memory with
  | ok answer memory =>
      have short := Protocol.acknowledgement_isShort responder.protocol answer
      have carriesOut := answer_frame_carriesOut known fits rfl onlyReads
      generalize Poll.ofResult id (responder.attended.answer Bench.port (.frame frame)
        bench) = ended at carriesOut ⊢
      rcases ended with ⟨⟨_, log⟩, after⟩
      rcases (carriesOut.answered answer memory handled).2.of_faultless faultless with
        ⟨result, sent⟩
      cases result
      rw [Protocol.acknowledgement_eq] at short sent
      refine ⟨_, .handled carriesOut.calls found handled rfl ?_, short, sent⟩
      intro conduct isConduct
      rw [isConduct] at handled
      exact Conduct.reply_of_handler handled
  | error stop memory =>
      have settles := settle_attended known fits rfl bench
      simp only [handled] at settles
      have unsent :
          Unsent (bench.log ++ [.called frame.command.toNat frame.request []]) :=
        .of_reads_and_calls onlyReads (by simp [Event.isCall])
      rw [answer_of_stopped settles]
      exact ⟨[], .unanswered (.inr (.inr ⟨stop, rfl⟩)), by simp, unsent.acceptedBytes_eq⟩

private theorem answer_conveys (received : Received) :
    responder.Conveys
      (.polled bench.memory
        (Poll.ofResult id (responder.attended.answer Bench.port received bench)).1) := by
  by_cases calls : responder.attended.Calls received
  · rcases calls with ⟨frame, entry, rfl, found, fits⟩
    rw [attended_find?, Option.map_eq_some_iff] at found
    rcases found with ⟨original, found, rfl⟩
    exact answer_called_conveys onlyReads faultless found fits
  · rcases settle_uncalled calls with ⟨reason, settles⟩ | ⟨answers, unregistered, settles⟩
    · exact answer_rejected_conveys onlyReads faultless settles
    · rw [attended_find?, Option.map_eq_none_iff] at unregistered
      rw [Protocol.acknowledgement_eq] at settles
      have short := Protocol.acknowledgement_isShort responder.protocol
        { status := responder.protocol.versionCode, reply := .empty }
      rw [Protocol.acknowledgement_eq] at short
      exact answer_uncalled_conveys onlyReads faultless settles short fun _ uncalled =>
        .version uncalled unregistered answers

end Answering

private theorem poll_passes (responder : Responder Memory)
    {link : Link capacity (Bench Memory)} (wellFormed : link.staged.WellFormed)
    (faultless : link.world.line.Faultless) :
    responder.Passes (.polled link.world.memory (responder.attended.poll link).1)
      (responder.attended.poll link).2 := by
  have served := poll_served responder.attended wellFormed
  generalize responder.attended.poll link = polled at served ⊢
  cases served with
  | @answered received rest middle _ _ _ stillWellFormed read _ =>
      have middleFaultless := read.faultless faultless
      have conveys : responder.Conveys _ :=
        answer_conveys read.onlyReads middleFaultless received
      rcases answer_counts responder.attended_attends received middle.world with
        ⟨writes, accepted, calls, isLine⟩
      rw [read.memory] at conveys
      refine ⟨conveys, stillWellFormed, ?_⟩
      simp only [isLine]
      exact middleFaultless.congr rfl rfl
  | @starved reason after isStarved _ _ stillWellFormed read _ _ =>
      have unsent : Unsent after.world.log :=
        fun event member => .inl (read.onlyReads event member)
      refine ⟨⟨[], .unanswered ?_, by simp, unsent.acceptedBytes_eq⟩, stillWellFormed,
        read.faultless faultless⟩
      unfold Poll.isStarved at isStarved
      split at isStarved
      case h_1 result =>
          cases result
          exact .inl rfl
      case h_2 result =>
          cases result
          exact .inr (.inl rfl)
      case h_3 result =>
          cases result
          exact .inr (.inr ⟨.endlessWait, rfl⟩)
      case h_4 => cases isStarved

theorem put_passes (responder : Responder Memory) (packet : Packet)
    {link : Link capacity (Bench Memory)} (wellFormed : link.staged.WellFormed)
    (faultless : link.world.line.Faultless) :
    responder.Passes (responder.attended.call link (.put packet)).1
      (responder.attended.call link (.put packet)).2 := by
  by_cases short : packet.IsShort
  · have transmission :=
      Bench.send_transmission responder.protocol short link.world.cleared
    simp only [call, Component.lift, Link.worldComponent, Link.mapWorld]
    change Bench.Transmission _ _ (responder.attended.protocol.send Bench.port packet.tag
      packet.data _) at transmission
    generalize responder.attended.protocol.send Bench.port packet.tag packet.data
      link.world.cleared = sent at transmission ⊢
    cases transmission with
    | complete transmitted _ all =>
        rcases transmitted.counted with ⟨writes, accepted, calls, rfl⟩
        refine ⟨⟨[packet], .put short, by simpa using short, ?_⟩, wellFormed,
          faultless.congr rfl rfl⟩
        simpa [Report.bytes, Report.log, Bench.cleared] using all
    | cut _ _ cause _ =>
        cases cause with
        | write faulty => exact absurd faultless faulty
        | flush faulty => exact absurd faultless faulty
        | stalled stalls => exact absurd faultless.progresses stalls
  · -- A packet that is too long is refused before the port is called, so that nothing
    -- depends on the line.
    have long : maxPayload < packet.data.length := Nat.lt_of_not_le short
    have refuses :
        (responder.attended.protocol.send Bench.port packet.tag packet.data : Activity
          (Bench Memory) Unit) =
        throw (.failed .payloadTooLong) := by
      simp only [Protocol.send, Protocol.pieces, if_pos long]
    simp only [call, refuses]
    exact ⟨⟨[], .refused long, by simp, rfl⟩, wellFormed, faultless⟩

private theorem call_passes (responder : Responder Memory) (call : Call)
    {link : Link capacity (Bench Memory)} (wellFormed : link.staged.WellFormed)
    (faultless : link.world.line.Faultless) :
    responder.Passes (responder.attended.call link call).1
      (responder.attended.call link call).2 := by
  cases call with
  | poll => exact responder.poll_passes wellFormed faultless
  | put packet => exact responder.put_passes packet wellFormed faultless

/-! ## Conversations -/

private theorem calls_convey (responder : Responder Memory) (calls : List Call)
    {link : Link capacity (Bench Memory)} (wellFormed : link.staged.WellFormed)
    (faultless : link.world.line.Faultless) :
    ∃ told, List.Forall₂ responder.Told (responder.attended.calls calls link).1 told ∧
      (∀ packet ∈ told.flatten, packet.IsShort) ∧
      (responder.attended.calls calls link).1.flatMap Report.bytes =
        told.flatten.flatMap responder.protocol.form := by
  induction calls generalizing link with
  | nil => exact ⟨[], .nil, by simp, rfl⟩
  | cons first later induction =>
      have passes := responder.call_passes first wellFormed faultless
      rcases passes.conveys with ⟨packets, toldFirst, shortFirst, bytesFirst⟩
      rcases induction passes.wellFormed passes.faultless with
        ⟨told, toldLater, shortLater, bytesLater⟩
      refine ⟨packets :: told, .cons toldFirst toldLater, ?_, ?_⟩
      · rw [List.flatten_cons]
        exact List.forall_mem_append.mpr ⟨shortFirst, shortLater⟩
      · rw [List.flatten_cons, List.flatMap_append, ← bytesFirst, ← bytesLater]
        rfl

/-- Whatever is called, on a line that does not fail the host reads back the packets that
the calls came to, in their order, from nothing but the bytes that the port accepted. -/
theorem responses_read_back (responder : Responder Memory) (calls : List Call)
    {link : Link capacity (Bench Memory)} (wellFormed : link.staged.WellFormed)
    (faultless : link.world.line.Faultless) :
    let reports := (responder.attended.calls calls link).1
    ∃ told, List.Forall₂ responder.Told reports told ∧
      responder.protocol.readStream? (reports.flatMap Report.bytes) =
        some told.flatten := by
  rcases responder.calls_convey calls wellFormed faultless with
    ⟨told, isTold, short, bytes⟩
  intro reports
  refine ⟨told, isTold, ?_⟩
  rw [bytes]
  exact responder.protocol.readStream?_forms short

def ofQueueing : Responder Unit where
  protocol := .v2_1
  table :=
    { entries :=
        [{ command := 0x31
           length := 1
           handler := Conduct.handler fun _ memory =>
             { attempts := [[0x00, 0xFF], List.replicate (maxPayload + 1) 0x00],
               status := .ok 0x07, memory } }] }
  answersVersion := false

def packetAndBroken : Link 8 (Bench Unit) :=
  .fresh
    { Bench.plain with
      line :=
        { Bench.plain.line with
          deliveries :=
            [.bytes [0x02, 0x31, 0x04, 0x01, 0x41, 0x0B, 0x00],
              .bytes [0x02, 0x31, 0x04, 0x01, 0x41, 0x0C, 0x00]] } }

/-- The tag of the packet that is sent in between is a line feed, and its data is
empty. -/
theorem ofQueueing_read_back :
    let calls : List Call := [.poll, .put { tag := 0x0A, data := [] }, .poll]
    let reports := (ofQueueing.attended.calls calls packetAndBroken).1
    packetAndBroken.staged.WellFormed ∧ packetAndBroken.world.line.Faultless ∧
      ∃ told, List.Forall₂ ofQueueing.Told reports told ∧
        ofQueueing.protocol.readStream? (reports.flatMap Report.bytes) =
          some told.flatten ∧ told.flatten =
          [{ tag := 'r'.toUInt8, data := [0x00, 0xFF] },
            { tag := 'e'.toUInt8, data := [0x07] },
            { tag := 0x0A, data := [] }, { tag := 'e'.toUInt8, data := [0x02] }] := by
  intro calls reports
  have wellFormed : packetAndBroken.staged.WellFormed := StagingBuffer.wellFormed_empty
  have faultless : packetAndBroken.world.line.Faultless :=
    Bench.plain_faultless.congr rfl rfl
  rcases responses_read_back ofQueueing calls wellFormed faultless with
    ⟨told, isTold, read⟩
  refine ⟨wellFormed, faultless, told, isTold, read, ?_⟩
  apply Option.some.inj
  rw [← read]
  decide +kernel

end Responder

end TriggerBench
