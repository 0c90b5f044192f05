import TriggerBench.Proofs.Polls

/-! # Answers on a bench

A handler that is put on a bench leaves its call in the log and nothing else. What is
settled is then sent, which only adds calls of the port.
-/

namespace TriggerBench

open Simulation

variable {Memory : Type} {capacity : Nat}

theorem Protocol.acknowledgement_isShort (protocol : Protocol) (answer : Answer) :
    ∀ packet ∈ protocol.acknowledgement answer, packet.IsShort := by
  intro packet member
  rcases List.mem_append.mp member with isReply | isStatus
  · rw [Option.mem_toList, Option.map_eq_some_iff] at isReply
    rcases isReply with ⟨payload, _, rfl⟩
    exact payload.length_le
  · rw [Option.mem_toList, Option.map_eq_some_iff] at isStatus
    rcases isStatus with ⟨tag, _, rfl⟩
    simp [Packet.IsShort, maxPayload]

theorem Protocol.rejection_isShort (protocol : Protocol) (reason : Rejection) :
    ∀ packet ∈ protocol.rejection reason, packet.IsShort := by
  intro packet member
  rw [Protocol.rejection, Option.mem_toList, Option.map_eq_some_iff] at member
  rcases member with ⟨tag, _, rfl⟩
  simp [Packet.IsShort, maxPayload]

namespace Responder

/-- What settling comes to on a bench: at most one call of a handler, which either answers
or stops. -/
inductive Settled (bench : Bench Memory) :
    EStateM.Result Interruption (Bench Memory) (List Packet × Outcome) → Prop
  | settled {packets outcome memory calls} (areCalls : ∀ event ∈ calls, event.isCall)
      (short : ∀ packet ∈ packets, packet.IsShort) :
      Settled bench (.ok (packets, outcome) { bench with
        memory, log := bench.log ++ calls })
  | stopped {stop memory call} (isCall : call.isCall) :
      Settled bench (.error (.stopped stop) { bench with
        memory, log := bench.log ++ [call] })

theorem Settled.uncalled {bench : Bench Memory} {packets : List Packet}
    {outcome : Outcome} (short : ∀ packet ∈ packets, packet.IsShort) :
    Settled bench (.ok (packets, outcome) bench) := by
  have settled :
      Settled bench (.ok (packets, outcome) { bench with
        memory := bench.memory, log := bench.log ++ [] }) :=
    .settled (by simp) short
  rwa [List.append_nil] at settled

/-- A responder whose handlers work on the memory of a bench alone, and are logged under
names. -/
def Attends (responder : Responder (Bench Memory)) : Prop :=
  ∀ entry ∈ responder.table.entries, ∃ name handler,
    entry.handler = Bench.attended name handler

theorem attended_attends (responder : Responder Memory) : responder.attended.Attends := by
  intro entry member
  rcases List.mem_map.mp member with ⟨original, _, rfl⟩
  exact ⟨original.command.toNat, original.handler, rfl⟩

theorem attended_find? (responder : Responder Memory) (command : UInt8) :
    responder.attended.table.find? command =
      (responder.table.find? command).map fun entry =>
        { command := entry.command
          length := entry.length
          handler := Bench.attended entry.command.toNat entry.handler } := by
  rw [CommandTable.find?, attended, List.find?_map]
  rfl

theorem attended_of_found {responder : Responder Memory} {command : UInt8}
    {entry : CommandEntry Memory} (found : responder.table.find? command = some entry) :
    responder.attended.table.find? command =
      some { command, length := entry.length,
             handler := Bench.attended command.toNat entry.handler } := by
  have isCommand : entry.command = command := by simpa using List.find?_some found
  rw [attended_find?, found, Option.map_some, isCommand]

/-- Whether what was received goes to a handler: it is a frame of a registered command,
with the registered length. -/
def Calls {World : Type} (responder : Responder World) (received : Received) : Prop :=
  ∃ frame entry, received = .frame frame ∧
    responder.table.find? frame.command = some entry ∧ entry.length = frame.payload.length

/-- What goes to no handler is dropped, or is the version command that the responder
answers on its own. -/
theorem settle_uncalled {World : Type} {responder : Responder World} {received : Received}
    (uncalled : ¬responder.Calls received) :
    (∃ reason, responder.settle received =
      pure (responder.protocol.rejection reason, .rejected reason)) ∨
      (responder.answersVersion = true ∧ responder.table.find? versionCommand = none ∧
        responder.settle received =
          pure (responder.protocol.acknowledgement
            { status := responder.protocol.versionCode, reply := .empty },
            .handled versionCommand responder.protocol.versionCode)) := by
  cases received with
  | dropped reason => exact .inl ⟨reason, rfl⟩
  | frame frame =>
      cases found : responder.table.find? frame.command with
      | some entry =>
          have misfits : entry.length ≠ frame.payload.length :=
            fun fits => uncalled ⟨frame, entry, rfl, found, fits⟩
          refine .inl ⟨.length, ?_⟩
          simp only [settle, found, bne_iff_ne.mpr misfits, if_true]
      | none =>
          by_cases isVersion :
            (responder.answersVersion && frame.command == versionCommand) = true
          · have answersVersion := isVersion
            rw [Bool.and_eq_true, beq_iff_eq] at answersVersion
            rcases answersVersion with ⟨answers, isCommand⟩
            rw [isCommand] at found
            refine .inr ⟨answers, found, ?_⟩
            simp only [settle, isCommand, found, answers, beq_self_eq_true,
              Bool.and_self, if_true]
          · refine .inl ⟨.unknownCommand frame.command, ?_⟩
            simp only [settle, found, if_neg isVersion]

theorem settle_of_not_calls {World : Type} {responder : Responder World}
    {received : Received} (uncalled : ¬responder.Calls received) :
    ∃ packets outcome, responder.settle received = pure (packets, outcome) ∧
      ∀ packet ∈ packets, packet.IsShort := by
  rcases settle_uncalled uncalled with ⟨reason, settles⟩ | ⟨_, _, settles⟩
  · exact ⟨_, _, settles, Protocol.rejection_isShort _ reason⟩
  · exact ⟨_, _, settles, Protocol.acknowledgement_isShort _ _⟩

/-- A frame goes to the handler of its command, whose answer is settled, or which stops
the poll. -/
theorem settle_attended {responder : Responder (Bench Memory)} {frame : Frame}
    {entry : CommandEntry (Bench Memory)}
    (found : responder.table.find? frame.command = some entry)
    (fits : entry.length = frame.payload.length) {name : Nat} {handler : Handler Memory}
    (isAttended : entry.handler = Bench.attended name handler) (bench : Bench Memory) :
    responder.settle (.frame frame) bench =
      match handler frame.request .empty bench.memory with
      | .ok answer memory =>
          .ok (responder.protocol.acknowledgement answer,
            .handled frame.command answer.status)
            { bench with memory, log := bench.log ++ [.called name frame.request []] }
      | .error stop memory =>
          .error (.stopped stop) { bench with
            memory, log := bench.log ++ [.called name frame.request []] } := by
  have run := Bench.attended_run name handler frame.request .empty bench
  rw [← isAttended] at run
  rw [settle_of_found found fits]
  cases handled : handler frame.request .empty bench.memory with
  | ok answer memory =>
      simp only [handled] at run
      rw [bind_of_ok (ofAction_of_ok run)]
      rfl
  | error stop memory =>
      simp only [handled] at run
      rw [bind_of_error (ofAction_of_error run)]

theorem settle_settled {responder : Responder (Bench Memory)}
    (attends : responder.Attends) (received : Received) (bench : Bench Memory) :
    Settled bench (responder.settle received bench) := by
  by_cases calls : responder.Calls received
  · rcases calls with ⟨frame, entry, rfl, found, fits⟩
    rcases attends entry (List.mem_of_find?_eq_some found) with
      ⟨name, handler, isAttended⟩
    rw [settle_attended found fits isAttended]
    cases handler frame.request .empty bench.memory with
    | ok answer memory =>
        exact .settled (by simp [Event.isCall])
          (Protocol.acknowledgement_isShort _ answer)
    | error stop memory => exact .stopped rfl
  · rcases settle_of_not_calls calls with ⟨packets, outcome, settles, short⟩
    rw [settles]
    exact .uncalled short

def afterSending {State : Type} (outcome : Outcome) :
    EStateM.Result Interruption State Unit → EStateM.Result Interruption State Outcome
  | .ok () after => .ok outcome after
  | .error reason after => .error reason after

theorem answer_of_settled {World : Type} {responder : Responder World} {port : Port World}
    {received : Received} {world middle : World} {packets : List Packet}
    {outcome : Outcome}
    (settled : responder.settle received world = .ok (packets, outcome) middle) :
    responder.answer port received world =
      afterSending outcome (responder.protocol.sendPackets port packets middle) := by
  rw [answer_eq, bind_of_ok settled]
  cases sent : responder.protocol.sendPackets port packets middle with
  | ok _ after =>
      rw [bind_of_ok sent]
      rfl
  | error reason after =>
      rw [bind_of_error sent]
      rfl

theorem answer_of_stopped {World : Type} {responder : Responder World} {port : Port World}
    {received : Received} {world middle : World} {reason : Interruption}
    (stopped : responder.settle received world = .error reason middle) :
    responder.answer port received world = .error reason middle := by
  rw [answer_eq, bind_of_error stopped]

/-- What answering comes to on a bench. It does not read, and it leaves something in the
log where it fails. -/
inductive Answered (bench : Bench Memory) :
    EStateM.Result Interruption (Bench Memory) Outcome → Prop
  | completed {outcome events after} (noReads : ∀ event ∈ events, event.isRead = false)
      (logged : after.log = bench.log ++ events) : Answered bench (.ok outcome after)
  | failed {reason events after} (noReads : ∀ event ∈ events, event.isRead = false)
      (logged : after.log = bench.log ++ events) (nonempty : events ≠ [])
      (notRead : reason ≠ .failed (.port .read))
      (notEnd : reason ≠ .failed .endOfStream) :
      Answered bench (.error reason after)

theorem answer_answered {responder : Responder (Bench Memory)}
    (attends : responder.Attends) (received : Received) (bench : Bench Memory) :
    Answered bench (responder.answer Bench.port received bench) := by
  have settled := settle_settled attends received bench
  generalize ran : responder.settle received bench = result at settled
  cases settled with
  | @stopped stop memory call isCall =>
      rw [answer_of_stopped ran]
      have noReads : ∀ event ∈ [call], event.isRead = false := by
        simpa using Event.isRead_of_isCall isCall
      exact .failed noReads rfl (List.cons_ne_nil call []) (by simp) (by simp)
  | @settled packets outcome memory calls areCalls short =>
      rw [answer_of_settled ran]
      have transmission := Bench.sendPackets_transmission responder.protocol short
        { bench with memory, log := bench.log ++ calls }
      have noReads : ∀ {events : List Event}, (∀ event ∈ events, event.isTransmission) →
          ∀ event ∈ calls ++ events, event.isRead = false := by
        intro events areTransmissions
        exact List.forall_mem_append.mpr
          ⟨fun event member => Event.isRead_of_isCall (areCalls event member),
            fun event member =>
            Event.isRead_of_isTransmission (areTransmissions event member)⟩
      generalize responder.protocol.sendPackets Bench.port packets { bench with
        memory, log := bench.log ++ calls } = sent at transmission
      cases transmission with
      | complete transmitted fine all =>
          rcases transmitted.counted with ⟨writes, accepted, count, rfl⟩
          exact .completed (noReads transmitted.sending) (List.append_assoc ..)
      | cut transmitted fine cause part =>
          rcases transmitted.counted with ⟨writes, accepted, count, rfl⟩
          refine .failed (noReads transmitted.sending)
            (List.append_assoc ..) (by simp) ?_ ?_
          · cases cause <;> simp
          · cases cause <;> simp

/-- An answer changes how far the line has got with sending, and nothing else about the
line. -/
theorem answer_counts {responder : Responder (Bench Memory)} (attends : responder.Attends)
    (received : Received) (bench : Bench Memory) :
    ∃ writes accepted calls,
      (Poll.ofResult id (responder.answer Bench.port received bench)).2.line =
      { bench.line with
        writes, accepted, flushes := { bench.line.flushes with calls } } := by
  have settled := settle_settled attends received bench
  generalize ran : responder.settle received bench = result at settled
  cases settled with
  | stopped isCall =>
      rw [answer_of_stopped ran]
      exact ⟨bench.line.writes, bench.line.accepted, bench.line.flushes.calls, rfl⟩
  | @settled packets outcome memory calls areCalls short =>
      have transmission := Bench.sendPackets_transmission responder.protocol short
        { bench with memory, log := bench.log ++ calls }
      rw [answer_of_settled ran]
      generalize responder.protocol.sendPackets Bench.port packets { bench with
        memory, log := bench.log ++ calls } = sent at transmission
      cases transmission with
      | complete transmitted =>
          rcases transmitted.counted with ⟨writes, accepted, calls, rfl⟩
          exact ⟨writes, accepted, calls, rfl⟩
      | cut transmitted =>
          rcases transmitted.counted with ⟨writes, accepted, calls, rfl⟩
          exact ⟨writes, accepted, calls, rfl⟩

theorem answer_keeps_deliveries {responder : Responder (Bench Memory)}
    (attends : responder.Attends) (received : Received) (bench : Bench Memory) :
    let after := (Poll.ofResult id (responder.answer Bench.port received bench)).2
    after.line.deliveries = bench.line.deliveries ∧
      after.line.readLimit = bench.line.readLimit := by
  rcases answer_counts attends received bench with ⟨writes, accepted, calls, isLine⟩
  intro after
  have line : after.line = { bench.line with
      writes, accepted, flushes := { bench.line.flushes with calls } } := isLine
  rw [line]
  exact ⟨rfl, rfl⟩

theorem toCome_answered {responder : Responder (Bench Memory)}
    (attends : responder.Attends) (received : Received)
    (link : Link capacity (Bench Memory)) :
    Link.toCome { link with
      world := (Poll.ofResult id (responder.answer Bench.port received link.world)).2 } =
      link.toCome := by
  have kept := answer_keeps_deliveries attends received link.world
  simp only [Link.toCome, Link.stream, Line.pending, kept.1]

/-! ## Headway -/

structure Keeps (link after : Link capacity (Bench Memory)) : Prop where
  wellFormed : after.staged.WellFormed
  flows : link.world.line.Flows → after.world.line.Flows
  supplied : after.world.line.supply ≤ link.world.line.supply

theorem poll_keeps {responder : Responder (Bench Memory)} (attends : responder.Attends)
    {link : Link capacity (Bench Memory)} (wellFormed : link.staged.WellFormed) :
    Keeps link (responder.poll link).2 := by
  have served := poll_served responder wellFormed
  generalize responder.poll link = polled at served ⊢
  cases served with
  | @answered received rest middle _ _ _ stillWellFormed read supplied =>
      have kept := answer_keeps_deliveries attends received middle.world
      rcases read with ⟨deliveries, reads, _, isMiddle⟩
      refine ⟨stillWellFormed, ?_, ?_⟩
      · intro flows
        simp only [Line.Flows, kept.2]
        rw [isMiddle]
        exact flows
      · simp only [Line.supply, kept.1]
        exact supplied
  | starved _ _ _ stillWellFormed read supplied _ =>
      rcases read with ⟨_, _, _, isAfter⟩
      refine ⟨stillWellFormed, ?_, supplied⟩
      intro flows
      rw [isAfter]
      exact flows

inductive Advanced (responder : Responder (Bench Memory))
    (link : Link capacity (Bench Memory)) (received : Received) (rest : List UInt8) :
    Poll × Link capacity (Bench Memory) → Prop
  | answered {middle after} (read : Bench.ReadFrom link.world.cleared middle)
      (world : after.world =
        (Poll.ofResult id (responder.answer Bench.port received middle)).2)
      (left : responder.trim after.toCome = responder.trim rest) :
      Advanced responder link received rest
        ((Poll.ofResult id (responder.answer Bench.port received middle)).1, after)
  | starved {poll after} (left : responder.trim after.toCome = responder.trim link.toCome)
      (ebbed : after.world.line.supply < link.world.line.supply) :
      Advanced responder link received rest (poll, after)

theorem poll_advanced {responder : Responder (Bench Memory)} (attends : responder.Attends)
    {link : Link capacity (Bench Memory)} (wellFormed : link.staged.WellFormed)
    (flows : link.world.line.Flows) {received : Received} {rest : List UInt8}
    (next : responder.next? capacity link.toCome = some (received, rest)) :
    Advanced responder link received rest (responder.poll link) := by
  have served := poll_served responder wellFormed
  generalize responder.poll link = polled at served ⊢
  cases served with
  | @answered known knownRest middle _ knownNext left _ read _ =>
      cases knownNext.symm.trans next
      exact .answered read rfl
        ((congrArg responder.trim (toCome_answered attends received middle)).trans left)
  | @starved reason after _ nothing left _ _ _ ebbed =>
      rcases ebbed flows with ebbed | nothingLeft
      · exact .starved left ebbed
      · -- Nothing is left to deliver and nothing is staged, so nothing could have come
        -- next.
        have staged : after.toCome = after.staged.toList := by
          simp [Link.toCome, Link.stream, nothingLeft]
        rw [← next?_congr left, staged, nothing] at next
        cases next

end Responder

end TriggerBench
