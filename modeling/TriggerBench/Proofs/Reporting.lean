import TriggerBench.Proofs.Answering

/-! # What a poll tells the host

Once an outcome is settled, a poll only sends. The host is told all of the outcome, or as
much as went out before a call of the port failed. A frame that has a handler is carried
out before that, by one call.
-/

namespace TriggerBench

open Simulation

variable {Memory : Type}

namespace Poll

/-- A poll that tells the host of an outcome: it ends with the outcome once all bytes are
sent, and otherwise with the failure of the call that cut them short. -/
inductive Tells (poll : Poll) (line : Line) (outcome : Outcome)
    (bytes : List UInt8) : Prop
  | all (result : poll.result = .ok outcome) (sent : acceptedBytes poll.log = bytes)
  | part {last reason} (cause : Bench.Cut line last reason)
      (result : poll.result = .error reason) (failed : last ∈ poll.log)
      (sent : acceptedBytes poll.log <+: bytes)

/-- A poll that has a handler, known by a name, carry out a request. The handler is called
once, works on the memory that the bench had, and the host is told of its answer. -/
structure CarriesOut (poll : Poll) (protocol : Protocol) (name : Nat)
    (handler : Handler Memory) (request : Request)
    (before after : Bench Memory) : Prop where
  calls : poll.log.filter Event.isCall = [.called name request []]
  answered : ∀ answer memory, handler request .empty before.memory = .ok answer memory →
    after.memory = memory ∧
      poll.Tells before.line (.handled request.command answer.status)
        ((protocol.acknowledgement answer).flatMap protocol.form)
  stopped : ∀ stop memory, handler request .empty before.memory = .error stop memory →
    after.memory = memory ∧ poll.result = .error (.stopped stop)

end Poll

/-! ## Events that are not sent -/

def Unsent (events : List Event) : Prop :=
  ∀ event ∈ events, event.isRead = true ∨ event.isCall = true

namespace Unsent

theorem of_reads_and_calls {reads calls : List Event}
    (areReads : ∀ event ∈ reads, event.isRead)
    (areCalls : ∀ event ∈ calls, event.isCall) : Unsent (reads ++ calls) := by
  intro event member
  rcases List.mem_append.mp member with isRead | isCall
  · exact .inl (areReads event isRead)
  · exact .inr (areCalls event isCall)

variable {events : List Event} (unsent : Unsent events)
include unsent

theorem fine : ∀ event ∈ events, event.isFault = false := by
  intro event member
  rcases unsent event member with isRead | isCall
  · cases event <;> simp [Event.isRead, Event.isFault] at isRead ⊢
  · cases event <;> simp [Event.isCall, Event.isFault] at isCall ⊢

theorem acceptedBytes_eq : acceptedBytes events = [] := by
  apply acceptedBytes_of_silent
  intro event member
  rcases unsent event member with isRead | isCall
  · cases event <;> simp [Event.isRead, Event.isTransmission] at isRead ⊢
  · cases event <;> simp [Event.isCall, Event.isTransmission] at isCall ⊢

end Unsent

theorem filter_of_transmissions {events : List Event}
    (sending : ∀ event ∈ events, event.isTransmission) :
    events.filter Event.isRead = [] ∧ events.filter Event.isCall = [] := by
  constructor
  · rw [List.filter_eq_nil_iff]
    intro event member isRead
    have transmits := sending event member
    cases event <;> simp [Event.isRead, Event.isTransmission] at isRead transmits
  · rw [List.filter_eq_nil_iff]
    intro event member isCall
    have transmits := sending event member
    cases event <;> simp [Event.isCall, Event.isTransmission] at isCall transmits

theorem filter_isCall_of_reads {events : List Event}
    (areReads : ∀ event ∈ events, event.isRead) :
    events.filter Event.isCall = [] := by
  rw [List.filter_eq_nil_iff]
  intro event member isCall
  have isRead := areReads event member
  rw [Event.isRead_of_isCall isCall] at isRead
  cases isRead

theorem filter_isCall_of_sent {reads events log : List Event}
    (logged : log = reads ++ events) (areReads : ∀ event ∈ reads, event.isRead)
    (sending : ∀ event ∈ events, event.isTransmission) :
    log.filter Event.isCall = [] := by
  rw [logged, List.filter_append, filter_isCall_of_reads areReads,
    (filter_of_transmissions sending).2, List.append_nil]

/-! ## Answers -/

theorem Poll.Tells.of_readFrom {poll : Poll} {before after : Bench Memory}
    {outcome : Outcome} {bytes : List UInt8} (read : Bench.ReadFrom before.cleared after)
    (tells : poll.Tells after.line outcome bytes) :
    poll.Tells before.line outcome bytes := by
  cases tells with
  | all result sent => exact .all result sent
  | part cause result failed sent =>
      rcases read with ⟨_, _, _, rfl⟩
      exact .part (cause.congr rfl rfl) result failed sent

/-- On a line that does not fail, the host is told everything. -/
theorem Poll.Tells.of_faultless {poll : Poll} {line : Line} {outcome : Outcome}
    {bytes : List UInt8} (tells : poll.Tells line outcome bytes)
    (faultless : line.Faultless) :
    poll.result = .ok outcome ∧ acceptedBytes poll.log = bytes := by
  cases tells with
  | all result sent => exact ⟨result, sent⟩
  | part cause =>
      cases cause with
      | write faulty | flush faulty => exact absurd faultless faulty
      | stalled stalls => exact absurd faultless.progresses stalls

/-- A poll that a read ends, or that drops what it received, has no handler carry out
anything. -/
theorem Poll.CarriesOut.result_ne {poll : Poll} {before after : Bench Memory}
    {protocol : Protocol} {name : Nat} {handler : Handler Memory} {request : Request}
    (carriesOut : poll.CarriesOut protocol name handler request before after) :
    (∀ reason, poll.result ≠ .ok (.rejected reason)) ∧
      poll.result ≠ .error (.failed .endOfStream) ∧
      poll.result ≠ .error (.failed (.port .read)) := by
  cases handled : handler request .empty before.memory with
  | ok answer memory =>
      cases (carriesOut.answered answer memory handled).2 with
      | all result => simp [result]
      | part cause result => cases cause <;> simp [result]
  | error stop memory => simp [(carriesOut.stopped stop memory handled).2]

theorem Poll.CarriesOut.of_readFrom {poll : Poll} {before middle after : Bench Memory}
    {protocol : Protocol} {name : Nat} {handler : Handler Memory} {request : Request}
    (read : Bench.ReadFrom before.cleared middle)
    (carriesOut : poll.CarriesOut protocol name handler request middle after) :
    poll.CarriesOut protocol name handler request before after := by
  refine ⟨carriesOut.calls, ?_, ?_⟩
  · intro answer memory handled
    rw [← read.memory] at handled
    rcases carriesOut.answered answer memory handled with ⟨kept, tells⟩
    exact ⟨kept, tells.of_readFrom read⟩
  · intro stop memory handled
    rw [← read.memory] at handled
    exact carriesOut.stopped stop memory handled

namespace Responder

/-- Behind what a settled outcome leaves in the log, a poll adds calls that send, and the
host is told. -/
theorem tells_afterSending {bench : Bench Memory} {bytes : List UInt8}
    {sent : EStateM.Result Interruption (Bench Memory) Unit}
    (transmission : Bench.Transmission bytes bench sent)
    (unsent : acceptedBytes bench.log = []) (outcome : Outcome) :
    let ended := Poll.ofResult id (afterSending outcome sent)
    ended.1.Tells bench.line outcome bytes ∧ ∃ events, bench.Transmitted events ended.2 ∧
      ended.1.log = bench.log ++ events := by
  cases transmission with
  | @complete events after transmitted fine all =>
      refine ⟨.all rfl ?_, events, transmitted, transmitted.logged⟩
      change acceptedBytes after.log = bytes
      rw [transmitted.logged, acceptedBytes_append, unsent, List.nil_append, all]
  | @cut events last reason after transmitted fine cause part =>
      have silent : acceptedBytes [last] = [] := by
        cases cause <;> rfl
      refine ⟨.part cause rfl ?_ ?_, events ++ [last], transmitted, transmitted.logged⟩
      · change last ∈ after.log
        simp [transmitted.logged]
      · change acceptedBytes after.log <+: bytes
        simpa only [transmitted.logged, acceptedBytes_append, unsent, silent,
          List.nil_append, List.append_nil] using part

/-- Whatever is settled without a handler, the host is told of it, and the poll does
nothing but send. -/
theorem answer_uncalled_tells {responder : Responder (Bench Memory)} {received : Received}
    {packets : List Packet} {outcome : Outcome}
    (settles : responder.settle received = pure (packets, outcome))
    (short : ∀ packet ∈ packets, packet.IsShort) {bench : Bench Memory}
    (unsent : acceptedBytes bench.log = []) :
    let ended := Poll.ofResult id (responder.answer Bench.port received bench)
    ended.1.Tells bench.line outcome (packets.flatMap responder.protocol.form) ∧
      ∃ events, bench.Transmitted events ended.2 ∧ ended.1.log = bench.log ++ events := by
  have settled : responder.settle received bench = .ok (packets, outcome) bench := by
    rw [settles]; rfl
  rw [answer_of_settled settled]
  exact tells_afterSending
    (Bench.sendPackets_transmission responder.protocol short bench) unsent outcome

/-- Under the stuffed protocol the host is told of something dropped by one packet with
the code of the reason. -/
theorem answer_dropped_tells {responder : Responder (Bench Memory)}
    (packets : responder.protocol = .v2_1) (reason : Rejection) {bench : Bench Memory}
    (unsent : acceptedBytes bench.log = []) :
    let ended := Poll.ofResult id (responder.answer Bench.port (.dropped reason) bench)
    ended.1.Tells bench.line (.rejected reason)
        (Stuffing.encode (ResponsePacket.raw 'e'.toUInt8 [reason.code]) ++ [0]) ∧
      ∃ events, bench.Transmitted events ended.2 ∧ ended.1.log = bench.log ++ events := by
  have settles : responder.settle (.dropped reason) =
      pure (responder.protocol.rejection reason, .rejected reason) := rfl
  have onePacket : (responder.protocol.rejection reason).flatMap responder.protocol.form =
      Stuffing.encode (ResponsePacket.raw 'e'.toUInt8 [reason.code]) ++ [0] := by
    rw [packets]
    exact List.append_nil _
  have tells := answer_uncalled_tells settles (Protocol.rejection_isShort _ reason) unsent
  rw [onePacket] at tells
  exact tells

/-- A frame of a registered command, with the registered length, is carried out by the
handler of that command. -/
theorem answer_frame_carriesOut {responder : Responder (Bench Memory)} {frame : Frame}
    {entry : CommandEntry (Bench Memory)}
    (found : responder.table.find? frame.command = some entry)
    (fits : entry.length = frame.payload.length) {name : Nat} {handler : Handler Memory}
    (isAttended : entry.handler = Bench.attended name handler) {bench : Bench Memory}
    (onlyReads : ∀ event ∈ bench.log, event.isRead) :
    let ended := Poll.ofResult id (responder.answer Bench.port (.frame frame) bench)
    ended.1.CarriesOut responder.protocol name handler frame.request bench ended.2 := by
  have settles := settle_attended found fits isAttended bench
  cases handled : handler frame.request .empty bench.memory with
  | ok answer memory =>
      let middle : Bench Memory :=
        { bench with memory, log := bench.log ++ [.called name frame.request []] }
      have settled : responder.settle (.frame frame) bench =
          .ok (responder.protocol.acknowledgement answer,
            .handled frame.command answer.status) middle := by
        rw [settles, handled]
      have transmission := Bench.sendPackets_transmission responder.protocol
        (Protocol.acknowledgement_isShort responder.protocol answer) middle
      have unsent : Unsent middle.log :=
        .of_reads_and_calls onlyReads (by simp [Event.isCall])
      rw [answer_of_settled settled]
      rcases tells_afterSending transmission unsent.acceptedBytes_eq
        (.handled frame.command answer.status) with ⟨tells, events, transmitted, logged⟩
      refine ⟨?_, ?_, ?_⟩
      · rw [logged, List.filter_append, List.filter_append,
          filter_isCall_of_reads onlyReads,
          (filter_of_transmissions transmitted.sending).2]
        rfl
      · intro known knownMemory isAnswer
        cases handled.symm.trans isAnswer
        rcases transmitted.counted with ⟨_, _, _, isAfter⟩
        exact ⟨by rw [isAfter], tells⟩
      · intro stop knownMemory isStop
        cases handled.symm.trans isStop
  | error stop memory =>
      simp only [handled] at settles
      rw [answer_of_stopped settles]
      refine ⟨?_, ?_, ?_⟩
      · change (bench.log ++ [Event.called name frame.request []]).filter Event.isCall = _
        rw [List.filter_append, filter_isCall_of_reads onlyReads]
        rfl
      · intro answer knownMemory isAnswer
        cases handled.symm.trans isAnswer
      · intro known knownMemory isStop
        cases handled.symm.trans isStop
        exact ⟨rfl, rfl⟩

end Responder

end TriggerBench
