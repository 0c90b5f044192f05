import TriggerBench.Proofs.MeasuredWindows
import TriggerBench.Proofs.Reporting
import TriggerBench.Proofs.RunCommand
import TriggerBench.Proofs.WireForms

/-! # Truthful statuses

The status that the host is told is the status of the measurement that was made in the
same poll. A poll decides on it before it sends anything, so that calls of the port that
fail do not change it.
-/

namespace TriggerBench

open Simulation

variable {capacity : Nat}

def settledOutcome? :
    EStateM.Result Interruption (Bench Unit) (List Packet × Outcome) → Option Outcome
  | .ok (_, outcome) _ => some outcome
  | .error _ _ => none

def Responder.decided? (responder : Responder (Bench Unit))
    (link : Link capacity (Bench Unit)) : Option Outcome :=
  match responder.receive Bench.port (link.mapWorld Bench.cleared) with
  | .ok received middle => settledOutcome? (responder.settle received middle.world)
  | .error _ _ => none

namespace Poll

def window (poll : Poll) : List Event :=
  poll.log.filter Event.isWindow

/-- A poll that read first, then measured in a window, then showed something, and sent
last. -/
def Consists (poll : Poll) (window shows : List Event) : Prop :=
  ∃ reads sends, poll.log = reads ++ (window ++ shows) ++ sends ∧
    (∀ event ∈ reads, event.isRead) ∧ (∀ event ∈ sends, event.isTransmission)

private theorem filter_isWindow_of_outside {events : List Event}
    (outside : ∀ event ∈ events, event.isWindow = false) :
    events.filter Event.isWindow = [] := by
  simpa [List.filter_eq_nil_iff] using outside

private theorem Consists.window_eq {poll : Poll} {window shows : List Event}
    (consists : poll.Consists window shows) (areWindow : ∀ event ∈ window, event.isWindow)
    (areShows : ∀ event ∈ shows, event.isShow) :
    poll.window = window := by
  rcases consists with ⟨reads, sends, logged, areReads, areSends⟩
  have ofReads := filter_isWindow_of_outside fun event member =>
    Event.isWindow_of_isRead (areReads event member)
  have ofShows := filter_isWindow_of_outside fun event member =>
    Event.isWindow_of_isShow (areShows event member)
  have ofSends := filter_isWindow_of_outside fun event member =>
    Event.isWindow_of_isTransmission (areSends event member)
  rw [Poll.window, logged]
  simp only [List.filter_append, ofReads, ofShows, ofSends,
    List.filter_eq_self.mpr areWindow, List.nil_append, List.append_nil]

/-- Where nothing is shown, all events that do not belong to the window are reads or calls
that send. -/
theorem Consists.outside {poll : Poll} {window : List Event}
    (consists : poll.Consists window []) {event : Event} (member : event ∈ poll.log) :
    event ∈ window ∨ (event.isWindow = false ∧ event.isShow = false) := by
  rcases consists with ⟨reads, sends, logged, areReads, areSends⟩
  rw [logged, List.append_nil] at member
  rcases List.mem_append.mp member with before | inSends
  · rcases List.mem_append.mp before with inReads | inWindow
    · have isRead := areReads event inReads
      refine .inr ⟨Event.isWindow_of_isRead isRead, ?_⟩
      cases event <;> simp [Event.isRead, Event.isShow] at isRead ⊢
    · exact .inl inWindow
  · have isTransmission := areSends event inSends
    refine .inr ⟨Event.isWindow_of_isTransmission isTransmission, ?_⟩
    cases event <;> simp [Event.isTransmission, Event.isShow] at isTransmission ⊢

private theorem consists_behind_reads {poll : Poll} {reads window : List Event}
    (areReads : ∀ event ∈ reads, event.isRead) (logged : poll.log = reads ++ window) :
    poll.Consists window [] :=
  ⟨reads, [], by simp [logged], areReads, by simp⟩

private theorem consists_of_reads {poll : Poll}
    (onlyReads : ∀ event ∈ poll.log, event.isRead) : poll.Consists [] [] :=
  consists_behind_reads onlyReads (List.append_nil poll.log).symm

end Poll

namespace Rig

def Commanded (settings : Settings) (responder : Responder (Bench Unit))
    (link : Link capacity (Bench Unit)) (rest : List UInt8) : Prop :=
  ∃ (frame : Frame) (wire : List UInt8), frame.Written settings.protocol wire ∧
    wire.length ≤ capacity ∧
    frame.command = settings.command ∧ frame.payload.length = settings.payloadLength ∧
      responder.trim link.toCome = wire ++ rest

def BreaksDown (link : Link capacity (Bench Unit)) (window : List Event) : Prop :=
  .executed ∈ window ∧ link.world.workload.execute.1 = false

/-! ## The responder of a rig -/

def runCommand (settings : Settings) : Responder (Bench Unit) :=
  (onBench settings).runResponder

/-- The run command is settled by a measurement. -/
theorem settle_runCommand {settings : Settings} {frame : Frame}
    (calls : (runCommand settings).Calls (.frame frame)) (bench : Bench Unit) :
    (runCommand settings).settle (.frame frame) bench =
      match (Session.Measuring.measurement settings.debug).measure
        frame.payload.bytes bench with
      | .ok status after =>
          .ok (settings.protocol.outcomePackets (.handled settings.command status.code),
            .handled settings.command status.code) after
      | .error stop after => .error (.stopped stop) after := by
  rcases calls with ⟨known, entry, isFrame, found, fits⟩
  cases isFrame
  rcases @command_of_found _ (onBench settings) _ _ found with ⟨isCommand, isLength⟩
  have hasLength : frame.payload.length = settings.payloadLength :=
    fits.symm.trans isLength
  cases measured : (Session.Measuring.measurement settings.debug).measure
    frame.payload.bytes bench with
  | ok status after =>
      exact @settle_of_measured _ (onBench settings) _ _ _ isCommand hasLength _ measured
  | error stop after =>
      exact @settle_of_broken _ (onBench settings) _ _ _ isCommand hasLength _ measured

/-! ## One poll -/

/-- What a poll of a rig decides on and what it comes to: nothing was received, or it was
dropped, or it was the run command and a measurement was made. -/
inductive Attempted (settings : Settings) (link : Link capacity (Bench Unit)) :
    Option Outcome → Poll × Link capacity (Bench Unit) → Prop
  | starved {poll after} (isStarved : poll.isStarved = true)
      (onlyReads : ∀ event ∈ poll.log, event.isRead) :
      Attempted settings link none (poll, after)
  | dropped {reason poll after} (consists : poll.Consists [] [])
      (tells : poll.Tells link.world.line (.rejected reason)
        ((settings.protocol.outcomePackets (.rejected reason)).flatMap
          settings.protocol.form)) :
      Attempted settings link (some (.rejected reason)) (poll, after)
  | broken {rest lowered poll after}
      (commanded : Commanded settings (runCommand settings) link rest)
      (left : (runCommand settings).trim after.toCome = (runCommand settings).trim rest)
      (breaks : link.world.workload.execute.1 = false)
      (consists : poll.Consists [.high true, .executed, .low lowered] [])
      (unsent : ∀ event ∈ poll.log, event.isTransmission = false)
      (result : poll.result = .error (.stopped (.fault .workload))) :
      Attempted settings link none (poll, after)
  | answered {rest status window shows poll after}
      (commanded : Commanded settings (runCommand settings) link rest)
      (left : (runCommand settings).trim after.toCome = (runCommand settings).trim rest)
      (concludes : Bench.Concludes settings.debug link.world.workload.execute.1
        status window shows)
      (consists : poll.Consists window shows)
      (tells : poll.Tells link.world.line (.handled settings.command status.code)
        ((settings.protocol.outcomePackets
          (.handled settings.command status.code)).flatMap settings.protocol.form)) :
      Attempted settings link (some (.handled settings.command status.code)) (poll, after)

theorem unsent_behind_reads {reads window shows : List Event}
    (areReads : ∀ event ∈ reads, event.isRead) (isBlock : Block window)
    (areShows : ∀ event ∈ shows, event.isShow) :
    ∀ event ∈ reads ++ (window ++ shows), event.isTransmission = false := by
  intro event member
  rcases List.mem_append.mp member with inReads | behind
  · have isRead := areReads event inReads
    cases event <;> simp [Event.isRead, Event.isTransmission] at isRead ⊢
  · rcases List.mem_append.mp behind with inWindow | inShows
    · have isWindow := isBlock.all_isWindow event inWindow
      cases event <;> simp [Event.isWindow, Event.isTransmission] at isWindow ⊢
    · have isShow := areShows event inShows
      cases event <;> simp [Event.isShow, Event.isTransmission] at isShow ⊢

section Answering

variable {settings : Settings} {link middle : Link capacity (Bench Unit)}
  {received : Received} (read : Bench.ReadFrom link.world.cleared middle.world)
include read

private theorem attempted_of_uncalled (uncalled : ¬(runCommand settings).Calls received) :
    Attempted settings link
      (settledOutcome? ((runCommand settings).settle received middle.world))
      (Poll.ofResult Link.world
        (Link.worldComponent.lift
          ((runCommand settings).answer Bench.port received) middle)) := by
  rcases Responder.settle_uncalled uncalled with ⟨reason, settles⟩ | ⟨answers, _⟩
  · have unsent : Unsent middle.world.log :=
      fun event member => .inl (read.onlyReads event member)
    have short := Protocol.rejection_isShort (runCommand settings).protocol reason
    rcases Responder.answer_uncalled_tells settles short unsent.acceptedBytes_eq with
      ⟨tells, sends, transmitted, logged⟩
    rw [settles, Poll.ofResult_lift]
    exact .dropped ⟨_, sends, by rw [List.append_nil, List.append_nil, logged],
      read.onlyReads, transmitted.sending⟩ (tells.of_readFrom read)
  · cases answers

private theorem attempted_of_calls {rest : List UInt8} {frame : Frame}
    (calls : (runCommand settings).Calls (.frame frame))
    (commanded : Commanded settings (runCommand settings) link rest)
    (left : (runCommand settings).trim middle.toCome = (runCommand settings).trim rest) :
    Attempted settings link
      (settledOutcome? ((runCommand settings).settle (.frame frame) middle.world))
      (Poll.ofResult Link.world
        (Link.worldComponent.lift
          ((runCommand settings).answer Bench.port (.frame frame)) middle)) := by
  have settles := settle_runCommand calls middle.world
  have measured := Bench.measure_measured settings.debug frame.payload.bytes middle.world
  generalize (Session.Measuring.measurement settings.debug).measure frame.payload.bytes
    middle.world = result at measured settles
  rw [Poll.ofResult_lift]
  cases measured with
  | @broken lowered _ breaks worked =>
      rw [settles, Responder.answer_of_stopped settles]
      rw [read.workload] at breaks
      rcases worked with ⟨raising, lowering, workload, display, rfl⟩
      have unsent :
          ∀ event ∈ middle.world.log ++ ([.high true, .executed, .low lowered] ++ []),
          event.isTransmission = false :=
        unsent_behind_reads read.onlyReads (.ran lowered) (by simp)
      rw [List.append_nil] at unsent
      exact .broken commanded left breaks
        (Poll.consists_behind_reads read.onlyReads rfl) unsent rfl
  | @concluded status window shows _ concludes worked =>
      rw [settles, Responder.answer_of_settled settles]
      rw [read.workload] at concludes
      rcases worked with ⟨raising, lowering, workload, display, rfl⟩
      have silent : acceptedBytes (middle.world.log ++ (window ++ shows)) = [] :=
        acceptedBytes_of_silent
          (unsent_behind_reads read.onlyReads concludes.block concludes.isShow)
      have short :=
        Protocol.outcomePackets_isShort settings.protocol
          (.handled settings.command status.code)
      rcases Responder.tells_afterSending
        (Bench.sendPackets_transmission (runCommand settings).protocol short
          { middle.world with
            raising, lowering, workload, display,
            log := middle.world.log ++ (window ++ shows) })
        silent (.handled settings.command status.code) with
        ⟨tells, sends, transmitted, logged⟩
      refine .answered commanded ?_ concludes ⟨_, sends, logged, read.onlyReads,
        transmitted.sending⟩ (Poll.Tells.of_readFrom read tells)
      rcases transmitted.counted with ⟨writes, accepted, count, isAfter⟩
      rw [isAfter]
      exact left

end Answering

private theorem poll_attempted {settings : Settings}
    (fits : settings.payloadLength ≤ maxPayload) {link : Link capacity (Bench Unit)}
    (wellFormed : link.staged.WellFormed) :
    Attempted settings link ((runCommand settings).decided? link)
      ((runCommand settings).poll link) := by
  have startWellFormed : (link.mapWorld Bench.cleared).staged.WellFormed := wellFormed
  have reception := (runCommand settings).receive_onBench startWellFormed
  have served := Responder.poll_served (runCommand settings) wellFormed
  rw [Responder.decided?]
  cases ran : (runCommand settings).receive Bench.port (link.mapWorld Bench.cleared) with
  | error reason after =>
      generalize (runCommand settings).poll link = polled at served ⊢
      cases served with
      | answered received => cases ran.symm.trans received
      | starved isStarved _ _ _ read _ _ => exact .starved isStarved read.onlyReads
  | ok received middle =>
      rw [ran] at reception
      rw [Responder.poll_of_receive ran]
      cases reception with
      | received next left _ read =>
          by_cases calls : (runCommand settings).Calls received
          · rcases calls with ⟨frame, entry, rfl, found, fitsFrame⟩
            rcases @command_of_found _ (onBench settings) _ _ found with
              ⟨isCommand, isLength⟩
            rcases Responder.written_of_next? (@built_runResponder _ (onBench settings)
              fits) next with ⟨wire, comesNext, inCapacity, written, _⟩
            exact attempted_of_calls read ⟨frame, entry, rfl, found, fitsFrame⟩
              ⟨frame, wire, written, inCapacity, isCommand,
                fitsFrame.symm.trans isLength, comesNext⟩ left
          · exact attempted_of_uncalled read calls

/-! ## What was done in a poll -/

inductive Acted (settings : Settings) (link : Link capacity (Bench Unit)) :
    Option Outcome → List Event → Prop
  | nothing {decision}
      (unhandled : ∀ command status, decision ≠ some (.handled command status)) :
      Acted settings link decision []
  | broken {lowered rest} (commanded : Commanded settings (runCommand settings) link rest)
      (breaks : link.world.workload.execute.1 = false) :
      Acted settings link none [.high true, .executed, .low lowered]
  | concluded {status window shows rest}
      (commanded : Commanded settings (runCommand settings) link rest)
      (concludes : Bench.Concludes settings.debug link.world.workload.execute.1
        status window shows) :
      Acted settings link (some (.handled settings.command status.code)) window

theorem Attempted.acted {settings : Settings} {link after : Link capacity (Bench Unit)}
    {decision : Option Outcome} {poll : Poll}
    (attempted : Attempted settings link decision (poll, after)) :
    Acted settings link decision poll.window := by
  cases attempted with
  | starved _ onlyReads =>
      rw [(Poll.consists_of_reads onlyReads).window_eq (by simp) (by simp)]
      exact .nothing (by simp)
  | dropped consists =>
      rw [consists.window_eq (by simp) (by simp)]
      exact .nothing (by simp)
  | broken commanded _ breaks consists =>
      rw [consists.window_eq (Block.ran _).all_isWindow (by simp)]
      exact .broken commanded breaks
  | answered commanded _ concludes consists =>
      rw [consists.window_eq concludes.block.all_isWindow concludes.isShow]
      exact .concluded commanded concludes

namespace Acted

variable {settings : Settings} {link : Link capacity (Bench Unit)}
  {decision : Option Outcome} {window : List Event}
  (acted : Acted settings link decision window)
include acted

/-- A poll decides on status zero exactly if a measurement was made from beginning to
end. -/
theorem succeeded_iff :
    decision = some (.handled settings.command Status.ok.code) ↔
      .high true ∈ window ∧ window.count .executed = 1 ∧ .low true ∈ window ∧
        ¬BreaksDown link window := by
  cases acted with
  | nothing unhandled => simp [unhandled]
  | broken _ breaks => simp [BreaksDown, breaks]
  | concluded _ concludes =>
      cases concludes with
      | refused => simp [Status.code]
      | stuck => simp [Status.code]
      | confirmed ran => simp [BreaksDown, ran]

/-- A poll decides on status one exactly if there was a run command and the trigger line
could not be driven. -/
theorem failed_iff :
    decision = some (.handled settings.command Status.triggerFault.code) ↔
      (∃ rest, Commanded settings (runCommand settings) link rest) ∧
        ¬BreaksDown link window ∧ (.high false ∈ window ∨ .low false ∈ window) := by
  cases acted with
  | nothing unhandled => simp [unhandled]
  | broken _ breaks => simp [BreaksDown, breaks]
  | @concluded _ _ _ rest commanded concludes =>
      have isCommanded : ∃ rest, Commanded settings (runCommand settings) link rest :=
        ⟨rest, commanded⟩
      cases concludes with
      | refused => simp [BreaksDown, isCommanded]
      | stuck ran => simp [BreaksDown, isCommanded, ran]
      | confirmed ran => simp [Status.code]

end Acted

/-! ## What holds of every poll -/

structure Truthful (settings : Settings) (responder : Responder (Bench Unit))
    (link after : Link capacity (Bench Unit)) (poll : Poll) : Prop where
  /-- Status zero stands for a measurement that was made in the same poll from beginning
  to end. An execution that breaks down is none. -/
  succeeded : responder.decided? link = some (.handled settings.command Status.ok.code) ↔
    .high true ∈ poll.window ∧ poll.window.count .executed = 1 ∧ .low true ∈ poll.window ∧
      ¬BreaksDown link poll.window
  failed : responder.decided? link =
      some (.handled settings.command Status.triggerFault.code) ↔
    (∃ rest, Commanded settings responder link rest) ∧ ¬BreaksDown link poll.window ∧
      (.high false ∈ poll.window ∨ .low false ∈ poll.window)
  /-- A poll has no other statuses, and no other commands. -/
  handled : ∀ command status, responder.decided? link = some (.handled command status) →
    command = settings.command ∧
    (status = Status.ok.code ∨ status = Status.triggerFault.code)
  /-- The host is told what was decided on, or as much of it as went out before a call of
  the port failed. -/
  tells : ∀ outcome, responder.decided? link = some outcome →
    poll.Tells link.world.line outcome
      ((settings.protocol.outcomePackets outcome).flatMap settings.protocol.form)
  reports : ∀ outcome, poll.result = .ok outcome → responder.decided? link = some outcome
  acknowledged : link.world.line.Faultless →
    ∀ outcome, responder.decided? link = some outcome →
    poll.result = .ok outcome ∧ acceptedBytes poll.log =
      (settings.protocol.outcomePackets outcome).flatMap settings.protocol.form
  /-- The confirmation is attempted behind the window and ahead of anything that is sent,
  and with status zero only. -/
  inOrder : ∃ shows, poll.Consists poll.window shows ∧
    (poll.window = [] ∨ Block poll.window) ∧ List.Forall₂ Event.Shows
      (if responder.decided? link = some (.handled settings.command Status.ok.code) ∧
        settings.debug then confirmation else []) shows
  /-- Nothing is told of a measurement that broke down, and the frame that asked for it is
  used up. -/
  brokenDown : BreaksDown link poll.window →
    poll.result = .error (.stopped (.fault .workload)) ∧
      (∀ event ∈ poll.log, event.isTransmission = false ∧ event.isShow = false) ∧
      ∃ rest, Commanded settings responder link rest ∧
      responder.trim after.toCome = responder.trim rest
  rejected : ∀ reason, responder.decided? link = some (.rejected reason) →
    ∀ event ∈ poll.log, event.isWindow = false ∧ event.isShow = false
  wellFormed : after.staged.WellFormed

namespace Attempted

variable {settings : Settings} {link after : Link capacity (Bench Unit)}
  {decision : Option Outcome} {poll : Poll}
  (attempted : Attempted settings link decision (poll, after))
include attempted

theorem handled {command status : UInt8}
    (decided : decision = some (.handled command status)) :
    command = settings.command ∧
      (status = Status.ok.code ∨ status = Status.triggerFault.code) := by
  cases attempted with
  | starved => cases decided
  | dropped => cases decided
  | broken => cases decided
  | @answered _ known =>
      cases decided
      cases known with
      | ok => exact ⟨rfl, .inl rfl⟩
      | triggerFault => exact ⟨rfl, .inr rfl⟩

theorem tells {outcome : Outcome} (decided : decision = some outcome) :
    poll.Tells link.world.line outcome
      ((settings.protocol.outcomePackets outcome).flatMap settings.protocol.form) := by
  cases attempted with
  | starved => cases decided
  | dropped _ tells =>
      cases decided
      exact tells
  | broken => cases decided
  | answered _ _ _ _ tells =>
      cases decided
      exact tells

theorem reports {outcome : Outcome} (result : poll.result = .ok outcome) :
    decision = some outcome := by
  cases attempted with
  | starved isStarved => simp [Poll.isStarved, result] at isStarved
  | broken _ _ _ _ _ stopped => cases result.symm.trans stopped
  | dropped _ tells =>
      cases tells with
      | all known => cases result.symm.trans known; rfl
      | part _ known => cases result.symm.trans known
  | answered _ _ _ _ tells =>
      cases tells with
      | all known => cases result.symm.trans known; rfl
      | part _ known => cases result.symm.trans known

theorem inOrder :
    ∃ shows, poll.Consists poll.window shows ∧ (poll.window = [] ∨ Block poll.window) ∧
      List.Forall₂ Event.Shows
        (if decision = some (.handled settings.command Status.ok.code) ∧
          settings.debug then confirmation else [])
        shows := by
  cases attempted with
  | starved _ onlyReads =>
      have consists := Poll.consists_of_reads onlyReads
      rw [consists.window_eq (by simp) (by simp)]
      exact ⟨[], consists, .inl rfl, by simp⟩
  | dropped consists =>
      rw [consists.window_eq (by simp) (by simp)]
      exact ⟨[], consists, .inl rfl, by simp⟩
  | broken _ _ _ consists =>
      rw [consists.window_eq (Block.ran _).all_isWindow (by simp)]
      exact ⟨[], consists, .inr (.ran _), by simp⟩
  | @answered _ _ window shows _ _ _ _ concludes consists =>
      rw [consists.window_eq concludes.block.all_isWindow concludes.isShow]
      refine ⟨shows, consists, .inr concludes.block, ?_⟩
      cases concludes with
      | refused => simp [Status.code]
      | stuck => simp [Status.code]
      | confirmed _ shown => simpa using shown

private theorem brokenDown (breaksDown : BreaksDown link poll.window) :
    poll.result = .error (.stopped (.fault .workload)) ∧
      (∀ event ∈ poll.log, event.isTransmission = false ∧ event.isShow = false) ∧
      ∃ rest, Commanded settings (runCommand settings) link rest ∧
        (runCommand settings).trim after.toCome = (runCommand settings).trim rest := by
  cases attempted with
  | starved _ onlyReads =>
      rw [(Poll.consists_of_reads onlyReads).window_eq (by simp) (by simp)] at breaksDown
      cases breaksDown.1
  | dropped consists =>
      rw [consists.window_eq (by simp) (by simp)] at breaksDown
      cases breaksDown.1
  | @broken rest lowered _ _ commanded left _ consists unsent result =>
      refine ⟨result, ?_, rest, commanded, left⟩
      intro event member
      refine ⟨unsent event member, ?_⟩
      rcases consists.outside member with inWindow | outside
      · have isWindow := (Block.ran lowered).all_isWindow event inWindow
        cases event <;> simp [Event.isWindow, Event.isShow] at isWindow ⊢
      · exact outside.2
  | answered _ _ concludes consists =>
      rw [consists.window_eq concludes.block.all_isWindow concludes.isShow] at breaksDown
      rcases breaksDown with ⟨executed, breaks⟩
      cases concludes with
      | refused => simp at executed
      | stuck ran => cases ran.symm.trans breaks
      | confirmed ran => cases ran.symm.trans breaks

theorem rejected {reason : Rejection} (decided : decision = some (.rejected reason)) :
    ∀ event ∈ poll.log, event.isWindow = false ∧ event.isShow = false := by
  cases attempted with
  | starved => cases decided
  | dropped consists =>
      intro event member
      rcases consists.outside member with inWindow | outside
      · cases inWindow
      · exact outside
  | broken => cases decided
  | answered => cases decided

end Attempted

private theorem poll_truthful {settings : Settings}
    (fits : settings.payloadLength ≤ maxPayload) {link : Link capacity (Bench Unit)}
    (wellFormed : link.staged.WellFormed) :
    Truthful settings (runCommand settings) link ((runCommand settings).poll link).2
      ((runCommand settings).poll link).1 := by
  have attempted := poll_attempted fits wellFormed
  have acted := attempted.acted
  exact
    { succeeded := acted.succeeded_iff
      failed := acted.failed_iff
      handled := fun _ _ => attempted.handled
      tells := fun _ => attempted.tells
      reports := fun _ => attempted.reports
      acknowledged :=
        fun faultless _ decided => (attempted.tells decided).of_faultless faultless
      inOrder := attempted.inOrder
      brokenDown := attempted.brokenDown
      rejected := fun _ => attempted.rejected
      wellFormed := Responder.poll_wellFormed (runCommand settings) wellFormed }

/-- In a session of a rig with a serial line, each poll holds to the truth, whatever
failed in it and in the polls before it. -/
theorem statuses_truthful {settings : Settings}
    (fits : settings.payloadLength ≤ maxPayload) :
    ∃ responder, (onBench settings).responder = .ok responder ∧
      ∀ (link : Connection (Bench Unit)) (times : Nat), link.staged.WellFormed →
        let start := (responder.polls times link).2
        Truthful settings responder start (responder.poll start).2
          (responder.poll start).1 := by
  refine ⟨runCommand settings, responder_of_fits fits, ?_⟩
  intro link times wellFormed
  -- A poll may start from any world, so all that has to be carried on from the polls
  -- before is a well-formed buffer.
  induction times generalizing link with
  | zero => exact poll_truthful fits wellFormed
  | succ times induction =>
      rw [Responder.polls_succ]
      exact induction _ (poll_truthful fits wellFormed).wellFormed

/-- Three run commands come in. The trigger line cannot be lowered after the second
execution of the workload, and the third one breaks down. -/
def threeCommands : Connection (Bench Unit) :=
  .fresh
    { Bench.plain with
      line :=
        { Bench.plain.line with
          deliveries := [.bytes ("141\n141\n141\n".toList.map Char.toUInt8)] }
      lowering := .ofFailures (· == 1)
      workload := { executions := .ofFailures (· == 2) } }

theorem threeCommands_truthful :
    Settings.usual.payloadLength ≤ maxPayload ∧ threeCommands.staged.WellFormed ∧
      ∃ responder, (onBench .usual).responder = .ok responder ∧
        (∀ times,
          let start := (responder.polls times threeCommands).2
          Truthful .usual responder start (responder.poll start).2
            (responder.poll start).1) ∧
        (responder.polls 3 threeCommands).1.map (·.result.toOption) =
          [some (.handled 0x31 0x00), some (.handled 0x31 0x01), none] := by
  have fits : Settings.usual.payloadLength ≤ maxPayload := by decide
  have wellFormed : threeCommands.staged.WellFormed := StagingBuffer.wellFormed_empty
  rcases statuses_truthful fits with ⟨responder, registered, truthful⟩
  cases (responder_of_fits fits).symm.trans registered
  refine ⟨fits, wellFormed, _, registered, fun times =>
    truthful threeCommands times wellFormed, ?_⟩
  decide +kernel

end Rig

end TriggerBench
