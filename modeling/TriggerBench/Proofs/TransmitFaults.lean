import Mathlib.Data.List.Forall2
import TriggerBench.Proofs.Reporting

/-! # Faults of the sending side

A run on a line that fails to send is held against a run with the same reads on a line
that never does. Poll by poll, the two call the same handlers, and the one sends no more
than the start of what the other sends.
-/

namespace TriggerBench

open Simulation

variable {Memory : Type} {capacity : Nat}

/-! ## Polls of the two runs -/

structure Poll.Follows (poll ideal : Poll) : Prop where
  reads : poll.log.filter Event.isRead = ideal.log.filter Event.isRead
  calls : poll.log.filter Event.isCall = ideal.log.filter Event.isCall
  sent : acceptedBytes poll.log <+: acceptedBytes ideal.log
  writeFailed : poll.result = .error (.failed (.port .write)) ↔ .sendFailed ∈ poll.log
  flushFailed : poll.result = .error (.failed (.port .flush)) ↔ .flushed false ∈ poll.log
  faultIsLast : ∀ before event behind, poll.log = before ++ event :: behind →
    event.isFault = true → behind = []
  faultFree : (∀ event ∈ poll.log, event.isFault = false) →
    poll.result = ideal.result ∧ acceptedBytes poll.log = acceptedBytes ideal.log
  ideal : ∀ event ∈ ideal.log, event.isFault = false

private theorem not_mem_of_fine {events : List Event}
    (fine : ∀ event ∈ events, event.isFault = false) :
    .sendFailed ∉ events ∧ .flushed false ∉ events := by
  constructor
  · intro member
    cases fine _ member
  · intro member
    cases fine _ member

private theorem eq_nil_behind_fault {events before behind : List Event}
    {last event : Event} (fine : ∀ event ∈ events, event.isFault = false)
    (split : events ++ [last] = before ++ event :: behind)
    (isFault : event.isFault = true) : behind = [] := by
  rcases List.eq_nil_or_concat behind with nothing | ⟨front, other, rfl⟩
  · exact nothing
  · have reordered : events ++ [last] = (before ++ event :: front) ++ [other] := by
      rw [split]
      simp
    have sameFront := (List.append_inj' reordered rfl).1
    have member : event ∈ events := by
      rw [sameFront]
      simp
    rw [fine event member] at isFault
    cases isFault

namespace Poll.Follows

private theorem of_unsent {result : Except Interruption Outcome} {log : List Event}
    (unsent : Unsent log) (notWrite : result ≠ .error (.failed (.port .write)))
    (notFlush : result ≠ .error (.failed (.port .flush))) :
    Follows { result, log } { result, log } where
  reads := rfl
  calls := rfl
  sent := List.prefix_refl _
  writeFailed := iff_of_false notWrite (not_mem_of_fine unsent.fine).1
  flushFailed := iff_of_false notFlush (not_mem_of_fine unsent.fine).2
  faultIsLast before event behind split isFault := by
    change log = _ at split
    have notFault := unsent.fine event (by rw [split]; simp)
    rw [notFault] at isFault
    cases isFault
  faultFree _ := ⟨rfl, rfl⟩
  ideal := unsent.fine

variable {before events idealEvents : List Event} {outcome : Outcome}

private theorem filter_sent {keep : Event → Bool} (dropped : events.filter keep = [])
    (idealDropped : idealEvents.filter keep = []) (before : List Event) :
    (before ++ events).filter keep = (before ++ idealEvents).filter keep := by
  rw [List.filter_append, List.filter_append, dropped, idealDropped]

private theorem of_complete (unsent : Unsent before)
    (sending : ∀ event ∈ events, event.isTransmission)
    (fine : ∀ event ∈ events, event.isFault = false)
    (idealSending : ∀ event ∈ idealEvents, event.isTransmission)
    (idealFine : ∀ event ∈ idealEvents, event.isFault = false)
    (same : acceptedBytes events = acceptedBytes idealEvents) :
    Follows { result := .ok outcome, log := before ++ events }
      { result := .ok outcome, log := before ++ idealEvents } := by
  have allFine : ∀ event ∈ before ++ events, event.isFault = false :=
    List.forall_mem_append.mpr ⟨unsent.fine, fine⟩
  have idealAllFine : ∀ event ∈ before ++ idealEvents, event.isFault = false :=
    List.forall_mem_append.mpr ⟨unsent.fine, idealFine⟩
  have dropped := filter_of_transmissions sending
  have idealDropped := filter_of_transmissions idealSending
  have sameBytes : acceptedBytes (before ++ events) =
      acceptedBytes (before ++ idealEvents) := by
    rw [acceptedBytes_append, acceptedBytes_append, same]
  exact
    { reads := filter_sent dropped.1 idealDropped.1 before
      calls := filter_sent dropped.2 idealDropped.2 before
      sent := sameBytes ▸ List.prefix_refl _
      writeFailed := iff_of_false (by simp) (not_mem_of_fine allFine).1
      flushFailed := iff_of_false (by simp) (not_mem_of_fine allFine).2
      faultIsLast := fun front event behind split isFault => by
        have notFault :=
          allFine event (by change before ++ events = _ at split; rw [split]; simp)
        rw [notFault] at isFault
        cases isFault
      faultFree := fun _ => ⟨rfl, sameBytes⟩
      ideal := idealAllFine }

private theorem of_cut {line : Line} (progresses : line.Progresses) {last : Event}
    {reason : Interruption} (cause : Bench.Cut line last reason) (unsent : Unsent before)
    (sending : ∀ event ∈ events ++ [last], event.isTransmission)
    (fine : ∀ event ∈ events, event.isFault = false)
    (idealSending : ∀ event ∈ idealEvents, event.isTransmission)
    (idealFine : ∀ event ∈ idealEvents, event.isFault = false)
    (part : acceptedBytes events <+: acceptedBytes idealEvents) :
    Follows { result := .error reason, log := before ++ (events ++ [last]) }
      { result := .ok outcome, log := before ++ idealEvents } := by
  have frontFine : ∀ event ∈ before ++ events, event.isFault = false :=
    List.forall_mem_append.mpr ⟨unsent.fine, fine⟩
  have idealAllFine : ∀ event ∈ before ++ idealEvents, event.isFault = false :=
    List.forall_mem_append.mpr ⟨unsent.fine, idealFine⟩
  have dropped := filter_of_transmissions sending
  have idealDropped := filter_of_transmissions idealSending
  have notMem := not_mem_of_fine frontFine
  have lastIsFault : last.isFault = true ∧ last.accepted = [] := by
    cases cause with
    | write => exact ⟨rfl, rfl⟩
    | flush => exact ⟨rfl, rfl⟩
    | stalled stalls => exact absurd progresses stalls
  exact
    { reads := filter_sent dropped.1 idealDropped.1 before
      calls := filter_sent dropped.2 idealDropped.2 before
      sent := by
        simp only [acceptedBytes_append, unsent.acceptedBytes_eq, List.nil_append]
        simpa [acceptedBytes, lastIsFault.2] using part
      writeFailed := by
        rw [← List.append_assoc]
        cases cause with
        | write => simp
        | flush => simpa using notMem.1
        | stalled stalls => exact absurd progresses stalls
      flushFailed := by
        rw [← List.append_assoc]
        cases cause with
        | write => simpa using notMem.2
        | flush => simp
        | stalled stalls => exact absurd progresses stalls
      faultIsLast := fun front event behind split isFault => by
        rw [← List.append_assoc] at split
        exact eq_nil_behind_fault frontFine split isFault
      faultFree := fun noFault => by
        have notFault := noFault last (by simp)
        rw [lastIsFault.1] at notFault
        cases notFault
      ideal := idealAllFine }

end Poll.Follows

/-! ## One poll -/

namespace Simulation.Bench

/-- A bench whose line makes progress, next to one that differs in how its line sends, and
that never fails. -/
structure Shadows (left right : Bench Memory) : Prop where
  alike : ∃ acceptance writes accepted flushes,
    right.cleared = left.cleared.altered
      (Line.sendingBy acceptance writes accepted flushes) []
  progresses : left.line.Progresses
  faultless : right.line.Faultless

private theorem Shadows.of_sendingBy {bench : Bench Memory} {acceptance : Acceptance}
    {writes accepted : Nat} {flushes : Schedule} (progresses : bench.line.Progresses)
    (faultless : (bench.line.sendingBy acceptance writes accepted flushes).Faultless) :
    bench.Shadows
      (bench.altered (Line.sendingBy acceptance writes accepted flushes) []) where
  alike := ⟨acceptance, writes, accepted, flushes, rfl⟩
  progresses := progresses
  faultless := faultless

private theorem Shadows.of_readFrom {before after : Bench Memory}
    {acceptance : Acceptance} {writes accepted : Nat} {flushes : Schedule}
    (progresses : before.line.Progresses)
    (faultless : (before.line.sendingBy acceptance writes accepted flushes).Faultless)
    (read : ReadFrom before after) :
    after.Shadows
      (after.altered (Line.sendingBy acceptance writes accepted flushes) []) := by
  rcases read with ⟨deliveries, reads, _, rfl⟩
  apply Shadows.of_sendingBy
  · exact progresses
  · exact ⟨faultless.progresses, faultless.accepts, faultless.flushes⟩

theorem Shadows.eq_altered {left right : Bench Memory} (shadows : left.Shadows right)
    (sameLog : right.log = left.log) :
    ∃ acceptance writes accepted flushes,
      right = left.altered (Line.sendingBy acceptance writes accepted flushes) [] := by
  rcases shadows.alike with ⟨acceptance, writes, accepted, flushes, alike⟩
  refine ⟨acceptance, writes, accepted, flushes, ?_⟩
  rcases left with ⟨leftLine⟩
  rcases right with ⟨rightLine⟩
  simp only [cleared, altered, List.nil_append, Bench.mk.injEq] at alike sameLog ⊢
  simp only [alike, sameLog, and_self]

theorem Shadows.of_transmitted {left right leftAfter rightAfter : Bench Memory}
    {leftEvents rightEvents : List Event} (shadows : left.Shadows right)
    (leftSent : left.Transmitted leftEvents leftAfter)
    (rightSent : right.Transmitted rightEvents rightAfter) :
    leftAfter.Shadows rightAfter := by
  rcases leftSent.counted with ⟨leftWrites, leftAccepted, leftCalls, rfl⟩
  rcases rightSent.counted with ⟨writes, accepted, calls, rfl⟩
  rcases shadows.alike with ⟨acceptance, _, _, flushes, alike⟩
  constructor
  · refine ⟨acceptance, writes, accepted, { flushes with calls }, ?_⟩
    rcases left with ⟨leftLine⟩
    rcases right with ⟨rightLine⟩
    simp only [cleared, altered, Line.sendingBy, List.nil_append,
      Bench.mk.injEq] at alike ⊢
    rcases alike with ⟨rfl, rest⟩
    exact ⟨rfl, rest⟩
  · exact shadows.progresses
  · exact ⟨shadows.faultless.progresses, shadows.faultless.accepts,
      shadows.faultless.flushes⟩

end Simulation.Bench

namespace Responder

private theorem sending_follows {left right : Bench Memory} (shadows : left.Shadows right)
    (unsent : Unsent left.log) (sameLog : right.log = left.log) {bytes : List UInt8}
    {sent idealSent : EStateM.Result Interruption (Bench Memory) Unit}
    (transmission : Bench.Transmission bytes left sent)
    (idealTransmission : Bench.Transmission bytes right idealSent) (outcome : Outcome) :
    let poll := Poll.ofResult id (afterSending outcome sent)
    let ideal := Poll.ofResult id (afterSending outcome idealSent)
    poll.1.Follows ideal.1 ∧ poll.2.Shadows ideal.2 := by
  cases idealTransmission with
  | cut _ _ cause _ =>
      cases cause with
      | write faulty => exact absurd shadows.faultless faulty
      | flush faulty => exact absurd shadows.faultless faulty
      | stalled stalls => exact absurd shadows.faultless.progresses stalls
  | @complete idealEvents idealAfter idealTransmitted idealFine idealAll =>
      have idealLogged := idealTransmitted.logged
      rw [sameLog] at idealLogged
      cases transmission with
      | @complete events after transmitted fine all =>
          refine ⟨?_, shadows.of_transmitted transmitted idealTransmitted⟩
          simp only [Poll.ofResult, afterSending, id_eq, transmitted.logged, idealLogged]
          exact .of_complete unsent transmitted.sending fine idealTransmitted.sending
            idealFine (all.trans idealAll.symm)
      | @cut events last reason after transmitted fine cause part =>
          refine ⟨?_, shadows.of_transmitted transmitted idealTransmitted⟩
          simp only [Poll.ofResult, afterSending, id_eq, transmitted.logged, idealLogged]
          exact .of_cut shadows.progresses cause unsent transmitted.sending fine
            idealTransmitted.sending idealFine (idealAll ▸ part)

private theorem answer_follows (responder : Responder Memory) (received : Received)
    {left right : Bench Memory} (shadows : left.Shadows right)
    (onlyReads : ∀ event ∈ left.log, event.isRead) (sameLog : right.log = left.log) :
    let poll := Poll.ofResult id (responder.attended.answer Bench.port received left)
    let ideal := Poll.ofResult id (responder.attended.answer Bench.port received right)
    poll.1.Follows ideal.1 ∧ poll.2.Shadows ideal.2 := by
  intro poll ideal
  rcases shadows.eq_altered sameLog with
    ⟨acceptance, writes, accepted, flushes, isAltered⟩
  let change : Bench Memory → Bench Memory :=
    Bench.altered (Line.sendingBy acceptance writes accepted flushes) []
  have settled := settle_settled responder.attended_attends received left
  have idealSettled : responder.attended.settle received right =
      changed change (responder.attended.settle received left) := by
    rw [isAltered]
    exact (Commutes.compositional _).settle _
      (Bench.attended_handlers responder) received left
  have faultless :
      (left.line.sendingBy acceptance writes accepted flushes).Faultless := by
    have known := shadows.faultless
    rw [isAltered] at known
    exact known
  have stillShadows : ∀ (memory : Memory) (log : List Event),
      Bench.Shadows { left with memory, log } (change { left with memory, log }) :=
    fun _ _ => .of_sendingBy shadows.progresses faultless
  generalize ran : responder.attended.settle received left =
    result at settled idealSettled
  cases settled with
  | @stopped stop memory call isCall =>
      have idealStopped : responder.attended.settle received right =
          .error (.stopped stop)
            (change { left with memory, log := left.log ++ [call] }) := idealSettled
      simp only [poll, ideal, answer_of_stopped ran, answer_of_stopped idealStopped]
      have unsent : Unsent (left.log ++ [call]) :=
        .of_reads_and_calls onlyReads (by simpa using isCall)
      exact ⟨.of_unsent unsent (by simp) (by simp), stillShadows memory _⟩
  | @settled packets outcome memory calls areCalls short =>
      have idealRan : responder.attended.settle received right =
          .ok (packets, outcome)
            (change { left with memory, log := left.log ++ calls }) := idealSettled
      simp only [poll, ideal, answer_of_settled ran, answer_of_settled idealRan]
      exact sending_follows (stillShadows memory _)
        (.of_reads_and_calls onlyReads areCalls) rfl
        (Bench.sendPackets_transmission responder.attended.protocol short _)
        (Bench.sendPackets_transmission responder.attended.protocol short _) outcome

end Responder

structure Link.Shadows (left right : Link capacity (Bench Memory)) : Prop where
  staged : right.staged = left.staged
  wellFormed : left.staged.WellFormed
  world : left.world.Shadows right.world

namespace Responder

private theorem poll_follows (responder : Responder Memory)
    {left right : Link capacity (Bench Memory)} (shadows : left.Shadows right) :
    let poll := responder.attended.poll left
    let ideal := responder.attended.poll right
    poll.1.Follows ideal.1 ∧ poll.2.Shadows ideal.2 := by
  intro poll ideal
  rcases shadows.world.alike with ⟨acceptance, writes, accepted, flushes, alike⟩
  let change : Bench Memory → Bench Memory :=
    Bench.altered (Line.sendingBy acceptance writes accepted flushes) []
  let start := left.mapWorld Bench.cleared
  have idealStart : right.mapWorld Bench.cleared = start.mapWorld change := by
    simp only [Link.mapWorld, shadows.staged, alike, start, change]
  -- Reads do not notice how a line sends, so both runs receive the same and differ only
  -- from the answer on.
  have idealReceived : responder.attended.receive Bench.port (start.mapWorld change) =
      changed (Link.mapWorld change) (responder.attended.receive Bench.port start) :=
    receive_commutes (Bench.port_readsThrough acceptance writes accepted flushes []) start
  have faultless : (change start.world).line.Faultless := by
    have same : right.world.cleared = change start.world := alike
    rw [← same]
    exact shadows.world.faultless
  have progresses : start.world.line.Progresses := shadows.world.progresses
  have stillShadows {after : Bench Memory} (read : Bench.ReadFrom start.world after) :
      after.Shadows (change after) := .of_readFrom progresses faultless read
  have reception :=
    receive_onBench responder.attended
      (show start.staged.WellFormed from shadows.wellFormed)
  simp only [poll, ideal, Responder.poll, idealStart, serveOne]
  generalize ran : responder.attended.receive Bench.port start =
    result at reception idealReceived
  cases reception with
  | @received received rest after _ _ wellFormed aside =>
      have idealRan : responder.attended.receive Bench.port (start.mapWorld change) =
          .ok received (after.mapWorld change) := idealReceived
      rw [bind_of_ok ran, bind_of_ok idealRan, Poll.ofResult_lift, Poll.ofResult_lift]
      have follows :=
        answer_follows responder received (stillShadows aside) aside.onlyReads rfl
      exact ⟨follows.1, rfl, wellFormed, follows.2⟩
  | @starved reason after _ _ wellFormed aside starves =>
      have idealRan : responder.attended.receive Bench.port (start.mapWorld change) =
          .error reason (after.mapWorld change) := idealReceived
      rw [bind_of_error ran, bind_of_error idealRan]
      have unsent : Unsent after.world.log :=
        fun event member => .inl (aside.onlyReads event member)
      rcases starves with ⟨_, _, _, _, starves⟩
      refine ⟨.of_unsent unsent ?_ ?_, rfl, wellFormed, stillShadows aside⟩
      · cases starves <;> simp
      · cases starves <;> simp

/-! ## A run of polls -/

/-- Next to a run on a line that never fails, a run with the same reads makes the same
calls, poll by poll. A call that fails to send ends its poll, with an error that says so,
and only costs the bytes behind it. -/
theorem polls_follow_faultless_run (responder : Responder Memory)
    {left right : Link capacity (Bench Memory)} (shadows : left.Shadows right)
    (times : Nat) :
    List.Forall₂ Poll.Follows (responder.attended.polls times left).1
        (responder.attended.polls times right).1 ∧
      (responder.attended.polls times left).2.Shadows
        (responder.attended.polls times right).2 := by
  induction times generalizing left right with
  | zero => exact ⟨.nil, shadows⟩
  | succ times induction =>
      have first := poll_follows responder shadows
      have rest := induction first.2
      rw [polls_succ, polls_succ]
      exact ⟨.cons first.1 rest.1, rest.2⟩

/-- Two packets on a line that accepts two bytes in a call, and as many in all as the
budget says. -/
def twoPackets (chunk budget : Option Nat) : Link 8 (Bench Unit) where
  staged := .empty
  world :=
    { Bench.plain with
      line :=
        { Bench.plain.line with
          deliveries :=
            [.bytes [0x02, 0x31, 0x04, 0x01, 0x41, 0x0B, 0x00],
              .bytes [0x02, 0x31, 0x04, 0x01, 0x41, 0x0B, 0x00]]
          acceptance := .limited chunk budget } }

private theorem twoPackets_shadows :
    (twoPackets (some 2) (some 3)).Shadows (twoPackets none none) where
  staged := rfl
  wellFormed := StagingBuffer.wellFormed_empty
  world :=
    { alike := ⟨.limited none none, 0, 0, .ofFailures fun _ => false, rfl⟩
      progresses := by
        intro calls accepted offered positive
        simp only [twoPackets, Acceptance.limited, Option.getD_some]
        split
        · simp
        · simp only [ne_eq, Option.some.injEq]
          omega
      faultless := Bench.plain_faultless.congr rfl rfl }

theorem twoPackets_follow :
    (twoPackets (some 2) (some 3)).Shadows (twoPackets none none) ∧
      List.Forall₂ Poll.Follows
        (ofOnePacket.attended.polls 2 (twoPackets (some 2) (some 3))).1
        (ofOnePacket.attended.polls 2 (twoPackets none none)).1 ∧
      (ofOnePacket.attended.polls 2 (twoPackets (some 2) (some 3))).1.map (fun poll =>
        acceptedBytes poll.log) = [[0x03, 0x65, 0x01], []] := by
  refine ⟨twoPackets_shadows,
    (polls_follow_faultless_run ofOnePacket twoPackets_shadows 2).1, ?_⟩
  decide +kernel

end Responder

end TriggerBench
