import TriggerBench.Proofs.Reporting
import TriggerBench.Proofs.WireForms

/-! # What handlers are called for

Commands are registered, bytes arrive and polls are made in any order. A poll goes by the
table as it is when the poll is made, also for bytes that were staged under another table:
whichever handler it calls was the last to register for the command of the frame, and with
the length that the frame has.
-/

namespace TriggerBench

open Simulation

variable {Memory : Type} {capacity : Nat}

structure Registration (Memory : Type) where
  command : UInt8
  length : Nat
  name : Nat
  handler : Handler Memory

def Registration.entry (registration : Registration Memory) :
    CommandEntry (Bench Memory) where
  command := registration.command
  length := registration.length
  handler := Bench.attended registration.name registration.handler

inductive Move (Memory : Type)
  | register (registration : Registration Memory)
  | answerVersion
  | feed (deliveries : List Delivery)
  | poll

/-- A responder on its link, and the registrations that it has accepted, the latest
first. -/
structure Service (capacity : Nat) (Memory : Type) where
  responder : Responder (Bench Memory)
  link : Link capacity (Bench Memory)
  accepted : List (Registration Memory)

namespace Service

def start (protocol : Protocol) (bench : Bench Memory) : Service capacity Memory where
  responder := .ofProtocol protocol
  link := .fresh bench
  accepted := []

def perform (service : Service capacity Memory) : Move Memory → Service capacity Memory
  | .register registration =>
      match service.responder.register registration.command registration.length
          (Bench.attended registration.name registration.handler) with
      | .ok responder =>
          { service with responder, accepted := registration :: service.accepted }
      | .error _ => service
  | .answerVersion => { service with responder := service.responder.answeringVersion }
  | .feed deliveries =>
      { service with link := service.link.mapWorld (Bench.feed · deliveries) }
  | .poll => { service with link := (service.responder.poll service.link).2 }

def latest? (service : Service capacity Memory) (command : UInt8) :
    Option (Registration Memory) :=
  service.accepted.find? (·.command == command)

/-- A frame that comes next with all of its bytes, and has the length that its command was
last registered with. -/
structure Due (service : Service capacity Memory) (registration : Registration Memory)
    (frame : Frame) (wire rest : List UInt8) : Prop where
  latest : service.latest? frame.command = some registration
  fits : registration.length = frame.payload.length
  written : frame.Written service.responder.protocol wire
  inCapacity : wire.length ≤ capacity
  comesNext : service.responder.trim service.link.toCome = wire ++ rest

/-! ## What every service keeps to -/

structure Sound (protocol : Protocol) (service : Service capacity Memory) : Prop where
  protocol : service.responder.protocol = protocol
  wellFormed : service.link.staged.WellFormed
  built : service.responder.table.Built
  attends : service.responder.Attends
  latest : ∀ command, service.responder.table.find? command =
    (service.latest? command).map Registration.entry

private theorem start_sound (protocol : Protocol) (bench : Bench Memory) :
    (start protocol bench : Service capacity Memory).Sound protocol where
  protocol := rfl
  wellFormed := StagingBuffer.wellFormed_empty
  built := .empty
  attends := by simp [Responder.Attends, start, Responder.ofProtocol, CommandTable.empty]
  latest _ := rfl

variable {service : Service capacity Memory} {protocol : Protocol}

theorem Sound.register (sound : service.Sound protocol)
    (registration : Registration Memory) :
    (service.perform (.register registration)).Sound protocol := by
  cases done : service.responder.table.register registration.entry with
  | error reason =>
      have refused : service.perform (.register registration) = service := by
        simp only [Registration.entry] at done
        simp only [perform, Responder.register, done, Except.map]
      rwa [refused]
  | ok table =>
      have accepted : service.perform (.register registration) =
          { service with
            responder := { service.responder with table }
            accepted := registration :: service.accepted } := by
        simp only [Registration.entry] at done
        simp only [perform, Responder.register, done, Except.map]
      rw [accepted]
      refine ⟨sound.protocol, sound.wellFormed, .registered sound.built done, ?_, ?_⟩
      · intro entry member
        rcases CommandTable.mem_of_register done member with ⟨isEntry, _⟩ | inTable
        · exact ⟨registration.name,
            registration.handler, by rw [isEntry, Registration.entry]⟩
        · exact sound.attends entry inTable
      · intro command
        change table.find? command =
          ((registration :: service.accepted).find? (·.command == command)).map _
        rw [CommandTable.find?_of_register done, List.find?_cons]
        by_cases asked : registration.command = command
        · simp [Registration.entry, asked]
        · simp only [Registration.entry, asked, if_false, beq_eq_false_iff_ne.mpr asked]
          exact sound.latest command

theorem Sound.perform (sound : service.Sound protocol) (move : Move Memory) :
    (service.perform move).Sound protocol := by
  cases move with
  | register registration => exact sound.register registration
  | answerVersion =>
      exact ⟨sound.protocol, sound.wellFormed, sound.built, sound.attends, sound.latest⟩
  | feed deliveries =>
      exact ⟨sound.protocol, sound.wellFormed, sound.built, sound.attends, sound.latest⟩
  | poll =>
      exact ⟨sound.protocol,
        (Responder.poll_keeps sound.attends sound.wellFormed).wellFormed, sound.built,
        sound.attends, sound.latest⟩

private theorem sound_of_moves (protocol : Protocol) (bench : Bench Memory)
    (moves : List (Move Memory)) :
    (moves.foldl perform (start protocol bench) : Service capacity
      Memory).Sound protocol := by
  suffices kept : ∀ service : Service capacity Memory, service.Sound protocol →
      (moves.foldl Service.perform service).Sound protocol from kept _
        (start_sound protocol bench)
  induction moves with
  | nil => exact fun _ sound => sound
  | cons move moves induction =>
      exact fun service sound => induction _ (sound.perform move)

/-! ## One poll -/

/-- What a poll has to do with the handlers: the frame that is due is carried out by the
handler that registered for it, or no handler is called. -/
inductive Dispatched (service : Service capacity Memory) :
    Poll × Link capacity (Bench Memory) → Prop
  | called {registration frame wire rest poll after}
      (due : service.Due registration frame wire rest)
      (carriesOut : poll.CarriesOut service.responder.protocol registration.name
        registration.handler frame.request service.link.world after.world)
      (left : service.responder.trim after.toCome = service.responder.trim rest) :
      Dispatched service (poll, after)
  | uncalled {poll after} (noCalls : poll.log.filter Event.isCall = [])
      (notDue : poll.isStarved = false →
        ∀ registration frame wire rest, ¬service.Due registration frame wire rest) :
      Dispatched service (poll, after)

private theorem Sound.entry_of_due (sound : service.Sound protocol)
    {registration : Registration Memory} {frame : Frame} {wire rest : List UInt8}
    (due : service.Due registration frame wire rest) :
    service.responder.table.find? frame.command = some registration.entry := by
  rw [sound.latest, due.latest, Option.map_some]

private theorem Sound.next?_of_due (sound : service.Sound protocol)
    {registration : Registration Memory} {frame : Frame} {wire rest : List UInt8}
    (due : service.Due registration frame wire rest) :
    service.responder.next? capacity service.link.toCome = some (.frame frame, rest) :=
  Responder.next?_of_written due.written
    (Responder.expects_of_found (sound.entry_of_due due) due.fits)
    due.inCapacity due.comesNext

private theorem Sound.dispatched (sound : service.Sound protocol) :
    service.Dispatched (service.responder.poll service.link) := by
  have served := Responder.poll_served service.responder sound.wellFormed
  generalize service.responder.poll service.link = polled at served ⊢
  cases served with
  | @answered received rest middle _ next left _ read _ =>
      by_cases calls : service.responder.Calls received
      · rcases calls with ⟨frame, entry, rfl, found, fits⟩
        rcases Responder.written_of_next? sound.built next with
          ⟨wire, comesNext, inCapacity, written, _⟩
        obtain ⟨registration, latest, rfl⟩ : ∃ registration,
            service.latest? frame.command = some registration ∧
            registration.entry = entry := by
          rwa [sound.latest, Option.map_eq_some_iff] at found
        have carriesOut := Responder.answer_frame_carriesOut found fits rfl read.onlyReads
        exact .called ⟨latest, fits, written, inCapacity, comesNext⟩
          (carriesOut.of_readFrom read)
          ((congrArg _ (Responder.toCome_answered sound.attends _ middle)).trans left)
      · rcases Responder.settle_of_not_calls calls with ⟨packets, outcome, settles, short⟩
        have unsent : Unsent middle.world.log :=
          fun event member => .inl (read.onlyReads event member)
        rcases Responder.answer_uncalled_tells settles short unsent.acceptedBytes_eq with
          ⟨_, events, transmitted, logged⟩
        refine .uncalled (filter_isCall_of_sent logged read.onlyReads
          transmitted.sending) ?_
        intro _ registration frame wire behind due
        cases next.symm.trans (sound.next?_of_due due)
        exact calls ⟨frame, _, rfl, sound.entry_of_due due, due.fits⟩
  | @starved reason after isStarved _ _ _ read _ _ =>
      refine .uncalled (filter_isCall_of_reads read.onlyReads) ?_
      intro notStarved
      rw [isStarved] at notStarved
      cases notStarved

structure Obeys (protocol : Protocol) (service : Service capacity Memory) (poll : Poll)
    (after : Link capacity (Bench Memory)) : Prop where
  once : (poll.log.filter Event.isCall).length ≤ 1
  /-- A call goes to the handler that registered last for the command, for a frame of the
  length that it registered. -/
  latest : ∀ name request sends, .called name request sends ∈ poll.log →
    ∃ registration frame wire rest,
    service.latest? request.command = some registration ∧ registration.name = name ∧
      request.payload.length = registration.length ∧
      (protocol.isText = true → request.subcommand = 0) ∧
      frame.request = request ∧ service.Due registration frame wire rest ∧
      poll.CarriesOut protocol name registration.handler request
        service.link.world after.world
  /-- A poll that drops what it received, or that a read ends, calls no handler. -/
  spared : (∃ reason, poll.result = .ok (.rejected reason)) ∨
    poll.result = .error (.failed .endOfStream) ∨
    poll.result = .error (.failed (.port .read)) →
    ∀ event ∈ poll.log, event.isCall = false
  /-- A frame that is due is carried out, and its bytes are used up. On a line that does
  not fail, the poll reports the status that the handler answered with. -/
  due : ∀ registration frame wire rest, service.Due registration frame wire rest →
    poll.isStarved = false →
    poll.CarriesOut protocol registration.name registration.handler frame.request
      service.link.world after.world ∧
      service.responder.trim after.toCome = service.responder.trim rest ∧
      (service.link.world.line.Faultless → ∀ answer memory,
        registration.handler frame.request .empty service.link.world.memory =
          .ok answer memory → poll.result = .ok (.handled frame.command answer.status))

private theorem Sound.obeys (sound : service.Sound protocol) :
    service.Obeys protocol (service.responder.poll service.link).1
      (service.responder.poll service.link).2 := by
  have dispatched := sound.dispatched
  generalize service.responder.poll service.link = polled at dispatched
  cases dispatched with
  | @called registration frame wire rest poll after due carriesOut left =>
      rw [sound.protocol] at carriesOut
      refine ⟨?_, ?_, ?_, ?_⟩
      · simp [carriesOut.calls]
      · intro name request sends member
        have isCall : Event.called name request sends ∈ poll.log.filter Event.isCall :=
          List.mem_filter.mpr ⟨member, rfl⟩
        rw [carriesOut.calls, List.mem_singleton] at isCall
        cases isCall
        refine ⟨registration, frame, wire, rest, due.latest, rfl, due.fits.symm, ?_, rfl,
          due, carriesOut⟩
        intro text
        cases due.written with
        | line _ noSubcommand => exact noSubcommand
        | packet packets =>
            rw [sound.protocol, text] at packets
            cases packets
      · intro spared
        rcases carriesOut.result_ne with ⟨notRejected, notEnd, notFailed⟩
        rcases spared with ⟨reason, rejected⟩ | ended | failed
        · exact absurd rejected (notRejected reason)
        · exact absurd ended notEnd
        · exact absurd failed notFailed
      · intro otherRegistration otherFrame otherWire otherRest otherDue _
        cases (sound.next?_of_due due).symm.trans (sound.next?_of_due otherDue)
        cases due.latest.symm.trans otherDue.latest
        refine ⟨carriesOut, left, ?_⟩
        intro faultless answer memory handled
        exact ((carriesOut.answered answer memory handled).2.of_faultless faultless).1
  | @uncalled poll after noCalls notDue =>
      have noCall : ∀ event ∈ poll.log, event.isCall = false := by
        simpa [List.filter_eq_nil_iff] using noCalls
      refine ⟨by simp [noCalls], ?_, fun _ => noCall, ?_⟩
      · intro name request sends member
        cases noCall _ member
      · intro registration frame wire rest due notStarved
        exact absurd due (notDue notStarved registration frame wire rest)

/-- Whatever was registered, delivered and polled before, handlers only see what they
registered for. -/
theorem calls_follow_registrations (protocol : Protocol) (bench : Bench Memory)
    (moves : List (Move Memory)) :
    let service : Service capacity Memory := moves.foldl perform (start protocol bench)
    service.Obeys protocol (service.responder.poll service.link).1
      (service.responder.poll service.link).2 :=
  (sound_of_moves protocol bench moves).obeys

def answering (name length : Nat) (status : UInt8) : Registration Unit where
  command := '1'.toUInt8
  length := length
  name := name
  handler := fun _ reply => pure { status, reply }

def reregistering : List (Move Unit) :=
  [.register (answering 1 2 0x00), .feed [.bytes ("14".toList.map Char.toUInt8)], .poll,
    .register (answering 2 1 0x07), .feed [.bytes ("1\n".toList.map Char.toUInt8)]]

/-- A service with a line whose start was staged while its command expected two bytes. Now
the command expects one. -/
def reregistered : Service 8 Unit :=
  reregistering.foldl perform (start .v1_1 Bench.plain)

def reregisteredFrame : Frame where
  command := '1'.toUInt8
  subcommand := 0x00
  payload := ⟨[0x41], by decide⟩

private theorem reregistered_due :
    reregistered.Due (answering 2 1 0x07) reregisteredFrame
      ("141\n".toList.map Char.toUInt8) [] where
  latest := rfl
  fits := rfl
  written := @Frame.Written.line _ _ ("41".toList.map Char.toUInt8) '\n'.toUInt8 rfl rfl
    (by decide) (.inl rfl)
  inCapacity := by decide
  comesNext := by decide +kernel

theorem reregistered_calls :
    let polled := reregistered.responder.poll reregistered.link
    polled.1.isStarved = false ∧
      polled.1.CarriesOut .v1_1 2 (answering 2 1 0x07).handler reregisteredFrame.request
        reregistered.link.world
        polled.2.world := by
  have obeys : reregistered.Obeys .v1_1 (reregistered.responder.poll reregistered.link).1
      (reregistered.responder.poll reregistered.link).2 :=
    calls_follow_registrations .v1_1 Bench.plain reregistering
  have notStarved : (reregistered.responder.poll reregistered.link).1.isStarved =
      false := by decide +kernel
  exact ⟨notStarved, (obeys.due _ _ _ _ reregistered_due notStarved).1⟩

end Service

end TriggerBench
