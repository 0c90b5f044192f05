import TriggerBench.Proofs.BrokenPackets
import TriggerBench.Proofs.CheckedServing

/-! # Serving is safe

Whatever has been registered and served before, the ring is well-formed and no command
expects more than a payload may hold. The checks of serving one more frame depend on
nothing else.
-/

namespace TriggerBench

open Simulation

variable {capacity : Nat} {World : Type}

/-! ## Ports that write alike -/

namespace Port

structure WritesLike (port other : Port World) : Prop where
  write : other.toWriter = port.toWriter
  flush : other.flush = port.flush

variable {port other : Port World}

theorem WritesLike.sendPieces (alike : port.WritesLike other)
    (pieces : List (List UInt8)) :
    other.sendPieces pieces = port.sendPieces pieces := by
  induction pieces with
  | nil => rfl
  | cons piece rest induction =>
      rw [Port.sendPieces, Port.sendPieces, Port.sendAll, Port.sendAll,
        alike.write, induction]

theorem WritesLike.send (alike : port.WritesLike other) (protocol : Protocol)
    (tag : UInt8) (data : List UInt8) :
    protocol.send other tag data = protocol.send port tag data := by
  simp only [Protocol.send, alike.sendPieces, Port.finish, alike.flush]

end Port

namespace Responder

/-- A responder and its link as they can come about: they start out empty, commands are
registered and frames served in any order, and the world of the port may change in
between. -/
inductive Reached (port : Port World) : Responder World → Link capacity World → Prop
  | start (protocol : Protocol) (world : World) :
      Reached port (.ofProtocol protocol) (.fresh world)
  | registered {responder registering link command length handler}
      (reached : Reached port responder link)
      (done : responder.register command length handler = .ok registering) :
      Reached port registering link
  | answeringVersion {responder link} (reached : Reached port responder link) :
      Reached port responder.answeringVersion link
  | elsewhere {responder link} (world : World) (reached : Reached port responder link) :
      Reached port responder { link with world }
  | served {responder link} (turns : Nat) (reached : Reached port responder link) :
      Reached port responder (Ran.after (responder.serveOneWithin port turns link))

variable {responder : Responder World} {port : Port World} {link : Link capacity World}

/-! ## What is kept -/

private theorem receiveWithin_keeps (honest : port.Honest)
    (wellFormed : link.staged.WellFormed) (turns : Nat) :
    (Ran.after (responder.receiveWithin port turns link)).staged.WellFormed := by
  have ended : Ended responder port _ _ :=
    receiveWithin_ended_wellFormed honest turns wellFormed
  generalize responder.receiveWithin port turns link = result at ended
  cases ended with
  | received stillWellFormed ran => exact turn_keeps honest stillWellFormed ran
  | interrupted stillWellFormed ran =>
      have turned : Turned responder port _ _ := turned honest stillWellFormed
      rw [ran] at turned
      cases turned with
      | starved _ _ _ => exact stillWellFormed
  | outOfTurns stillWellFormed => exact stillWellFormed

private theorem lift_staged (activity : Activity World Outcome)
    (link : Link capacity World) :
    (Ran.after (Link.worldComponent.lift activity link)).staged = link.staged := by
  simp only [Component.lift]
  cases activity (Link.worldComponent.get link) <;> rfl

private theorem serveOneWithin_keeps (honest : port.Honest)
    (wellFormed : link.staged.WellFormed) (turns : Nat) :
    (Ran.after (responder.serveOneWithin port turns link)).staged.WellFormed := by
  have kept : (Ran.after (responder.receiveWithin port turns link)).staged.WellFormed :=
    receiveWithin_keeps honest wellFormed turns
  rw [serveOneWithin]
  cases ran : responder.receiveWithin port turns link with
  | error reason after =>
      rw [ran] at kept
      rw [bind_of_error ran]
      exact kept
  | ok received middle =>
      rw [ran] at kept
      rw [bind_of_ok ran, lift_staged]
      exact kept

theorem Reached.wellFormed (honest : port.Honest)
    (reached : Reached port responder link) :
    link.staged.WellFormed := by
  induction reached with
  | start protocol world => exact StagingBuffer.wellFormed_empty
  | registered _ _ induction => exact induction
  | answeringVersion _ induction => exact induction
  | elsewhere _ _ induction => exact induction
  | served turns _ induction => exact serveOneWithin_keeps honest induction turns

theorem Reached.built (reached : Reached port responder link) :
    responder.table.Built := by
  induction reached with
  | start protocol world => exact .empty
  | answeringVersion _ induction => exact induction
  | elsewhere _ _ induction => exact induction
  | served _ _ induction => exact induction
  | @registered responder registering _ command length handler _ done induction =>
      rw [register] at done
      cases isTable : responder.table.register { command, length, handler } with
      | error reason =>
          rw [isTable] at done
          cases done
      | ok table =>
          rw [isTable] at done
          cases done
          exact .registered induction isTable

/-! ## Reads that leave without bytes -/

/-- A read that leaves receiving without bytes has asked for at least one, and for no more
than there was room for. -/
theorem receiveWithin_starved (honest : port.Honest) (wellFormed : link.staged.WellFormed)
    {turns : Nat} {after : Link capacity World} {reason : Interruption}
    (ran : responder.receiveWithin port turns link = .error reason after) :
    (∃ stop, reason = .stopped stop) ∨ ∃ wanted before, 0 < wanted ∧
      wanted ≤ capacity - after.staged.size ∧
      port.Starves wanted before reason after.world := by
  have ended : Ended responder port _ _ :=
    receiveWithin_ended_wellFormed honest turns wellFormed
  rw [ran] at ended
  cases ended with
  | interrupted stillWellFormed turning =>
      rcases turn_error turning with
        stopped | ⟨region, notFull, room, sameStaged, starves⟩
      · exact .inl stopped
      · rcases stillWellFormed.room? notFull with
          ⟨known, isRoom, _, positive, inFree, _, _⟩
        cases room.symm.trans isRoom
        rw [sameStaged]
        exact .inr ⟨region.length, _, positive, inFree, starves⟩
  | outOfTurns _ => exact .inl ⟨_, rfl⟩

private theorem serveOneWithin_ended (honest : port.Honest)
    (wellFormed : link.staged.WellFormed) {turns : Nat} {after : Link capacity World}
    (ended : responder.serveOneWithin port turns link =
      .error (.failed .endOfStream) after) :
    ∃ wanted before, 0 < wanted ∧ wanted ≤ capacity - after.staged.size ∧
      port.read wanted before = .ok (some []) after.world := by
  rcases error_of_bind ended with receiving | ⟨received, middle, _, answering⟩
  · rcases receiveWithin_starved honest wellFormed receiving with ⟨stop, isStop⟩ |
      ⟨wanted, before, positive, inFree, starves⟩
    · cases isStop
    · cases starves with
      | ended read => exact ⟨wanted, before, positive, inFree, read⟩
  · rcases error_of_lift answering with ⟨world, answered, _⟩
    rcases answer_error answered with ⟨stop, isStop⟩ | ⟨before, refuses⟩
    · cases isStop
    · cases refuses

/-! ## A ring without cells -/

private theorem turn_of_no_cells {link : Link 0 World}
    (wellFormed : link.staged.WellFormed) :
    responder.turn port link =
      .ok (some (.dropped .overflow)) { link with staged := link.staged.discard } := by
  have nothing : link.staged.size = 0 := Nat.le_zero.mp wellFormed.size_le
  apply turn_of_full
  · rw [StagingBuffer.toList_of_size_eq_zero nothing, examine_nil]
  · simp [StagingBuffer.isFull, nothing]

private theorem serveOne_of_no_cells (port : Port World) {link : Link 0 World}
    (wellFormed : link.staged.WellFormed) :
    responder.serveOne port link =
      Link.worldComponent.lift (responder.reject port .overflow) { link with
        staged := link.staged.discard } := by
  rw [serveOne, bind_of_ok (receive_of_turn (turn_of_no_cells wellFormed))]
  rfl

private theorem reject_writesLike {other : Port World} (alike : port.WritesLike other)
    (reason : Rejection) :
    responder.reject other reason = responder.reject port reason := by
  simp only [reject, alike.send]

/-- What serving comes to on a ring without cells. Calls that send are the only ones of
the port: the overflow is reported as soon as they all went well, and under the text
protocols there is none that the port could refuse. -/
inductive Overflowed (responder : Responder World) (port : Port World)
    (link : Link 0 World) :
    Ran (Link 0 World) Outcome → Prop
  | rejected {bytes after} (accepts : port.Accepts bytes link.world after.world) :
      Overflowed responder port link (.ok (.rejected .overflow) after)
  | refused {bytes middle reason after} (packets : responder.protocol.isText = false)
      (accepts : port.Accepts bytes link.world middle)
      (refuses : port.Refuses reason middle after.world) :
      Overflowed responder port link (.error reason after)

private theorem serveOne_overflowed (responder : Responder World) (port : Port World)
    {link : Link 0 World} (wellFormed : link.staged.WellFormed) :
    Overflowed responder port link (responder.serveOne port link) := by
  rw [serveOne_of_no_cells port wellFormed]
  simp only [Component.lift, Link.worldComponent]
  cases text : responder.protocol.isText with
  | true =>
      simp only [reject, Protocol.rejectionTag?_of_isText text]
      exact .rejected .nothing
  | false =>
      rw [reject_eq]
      have sent := port.sent_accounts.sendPackets responder.protocol
        (Protocol.rejection_isShort responder.protocol .overflow) link.world
      generalize ran : responder.protocol.sendPackets port
        (responder.protocol.rejection .overflow) link.world = result at sent
      cases sent with
      | complete accepts =>
          rw [bind_of_ok ran]
          exact .rejected accepts
      | cut accepts _ refuses =>
          rw [bind_of_error ran]
          exact .refused text accepts refuses

/-! ## Safety -/

structure ServesSafely (responder : Responder World) (port : Port World)
    (link : Link capacity World) : Prop where
  /-- No check finds anything: all positions exist, all indices and bounds are inside, no
  claim exceeds the free cells, no push meets a full payload, and each read asks for
  something. -/
  checked : ∀ turns, responder.serveChecked port turns link =
    .ok (responder.serveOneWithin port turns link)
  budgeted : responder.serveOne port link =
    responder.serveOneWithin port (link.turnBudget port) link
  /-- The stream only ends where the port itself delivers nothing, although it was asked
  for something. -/
  streamEnds : ∀ turns after,
    responder.serveOneWithin port turns link = .error (.failed .endOfStream) after →
    ∃ wanted before, 0 < wanted ∧ wanted ≤ capacity - after.staged.size ∧
      port.read wanted before = .ok (some []) after.world
  /-- On a ring without cells an overflow is reported, unless the port refuses to send the
  packet that tells it. -/
  overflows : ∀ bare : Link 0 World, Reached port responder bare →
    Overflowed responder port bare (responder.serveOne port bare)
  /-- On such a ring nothing is read. -/
  unread : ∀ bare : Link 0 World, Reached port responder bare →
    ∀ other : Port World, port.WritesLike other →
    responder.serveOne other bare = responder.serveOne port bare

/-- With a port that delivers no more than it is asked for, serving is safe from wherever
a responder can come to be, however many turns it takes. -/
theorem serving_is_safe (honest : port.Honest) (reached : Reached port responder link) :
    responder.ServesSafely port link where
  checked turns :=
    serveChecked_eq honest (fun _ _ expected => expectedLength_le reached.built expected)
      (reached.wellFormed honest) turns
  budgeted := responder.serveOne_eq port link
  streamEnds turns after ended :=
    serveOneWithin_ended honest (reached.wellFormed honest) ended
  overflows bare reachedBare :=
    serveOne_overflowed responder port (reachedBare.wellFormed honest)
  unread bare reachedBare other alike := by
    have wellFormed := reachedBare.wellFormed honest
    rw [serveOne_of_no_cells port wellFormed, serveOne_of_no_cells other wellFormed,
      reject_writesLike alike]

end Responder

theorem Port.silent_honest : Port.silent.Honest := by
  intro wanted world bytes after read
  cases read
  exact Nat.zero_le wanted

private theorem Responder.reached_silent (capacity : Nat) :
    Reached Port.silent (ofProtocol .v2_1).answeringVersion
      (Link.fresh () : Link capacity Unit) :=
  .answeringVersion (.start .v2_1 ())

def Responder.echoing : Responder (Bench Unit) where
  protocol := .v2_1
  table :=
    { entries :=
        [{ command := 0x31
           length := 1
           handler := fun request reply =>
             pure { status := 0x00, reply := (reply.send request.payload).1 } }] }
  answersVersion := false

/-- A ring of eight cells that has taken and released one packet of seven bytes, and is
about to read another one. -/
def Link.echoed : Link 8 (Bench Unit) :=
  Ran.after
    (Responder.echoing.serveOneWithin Bench.port 5
      (.fresh
        { Bench.plain with
          line :=
            { Bench.plain.line with
              deliveries :=
                List.replicate 2 (.bytes [0x02, 0x31, 0x04, 0x01, 0x41, 0x0B, 0x00]) } }))

private theorem Responder.reached_echoed : Reached Bench.port echoing Link.echoed :=
  .served 5 (@Reached.registered _ _ _ _ _ _ 0x31 1 _ (.start .v2_1 _) rfl)

/-- The second packet wraps round the end of the ring, which takes a read of its own, and
is answered like the first one. On a silent port, a ring with cells meets the end of the
stream, and one without cells overflows. -/
theorem Responder.echoed_serving_is_safe :
    (Bench.port : Port (Bench Unit)).Honest ∧ Reached Bench.port echoing Link.echoed ∧
      (let ran := echoing.serveOneWithin Bench.port 5 Link.echoed
       echoing.serveChecked Bench.port 5 Link.echoed = .ok ran ∧
        (Ran.after ran).staged =
          { cells := #v[0x31, 0x04, 0x01, 0x41, 0x0B, 0x00, 0x00, 0x02],
            start := 6, size := 0 } ∧
        (Ran.after ran).world.log =
          Link.echoed.world.log ++
            [.read 1 (some 1), .read 7 (some 6),
              .sent [0x05, 0x72, 0x01, 0x41, 0xEA, 0x00], .flushed true,
              .sent [0x03, 0x65, 0x01, 0x02, 0xEB, 0x00], .flushed true]) ∧
      Port.silent.Honest ∧
      Reached Port.silent (ofProtocol .v2_1).answeringVersion
        (Link.fresh () : Link 8 Unit) ∧
      Reached Port.silent (ofProtocol .v2_1).answeringVersion
        (Link.fresh () : Link 0 Unit) ∧
      (ofProtocol .v2_1).answeringVersion.serveOneWithin Port.silent 1
        (Link.fresh () : Link 8 Unit) =
        .error (.failed .endOfStream) (Link.fresh ()) ∧
      (ofProtocol .v2_1).answeringVersion.serveChecked Port.silent 1
        (Link.fresh () : Link 8 Unit) =
        .ok (.error (.failed .endOfStream) (Link.fresh ())) ∧
      (∃ wanted before, 0 < wanted ∧ wanted ≤ 8 ∧
        Port.silent.read wanted before = .ok (some []) ()) ∧
      Overflowed (ofProtocol .v2_1).answeringVersion Port.silent
        (Link.fresh () : Link 0 Unit)
        ((ofProtocol .v2_1).answeringVersion.serveOne Port.silent (Link.fresh ())) := by
  have honest : (Bench.port : Port (Bench Unit)).Honest :=
    Bench.port_streams.gathers.honest
  have onBench := serving_is_safe honest reached_echoed
  have reached := reached_silent 8
  have onSilence := serving_is_safe Port.silent_honest reached
  have ended : (ofProtocol .v2_1).answeringVersion.serveOneWithin Port.silent 1
      (Link.fresh () : Link 8 Unit) = .error (.failed .endOfStream) (Link.fresh ()) := rfl
  refine ⟨honest, reached_echoed,
    ⟨onBench.checked 5, by decide +kernel, by decide +kernel⟩, Port.silent_honest,
    reached, reached_silent 0, ended, ?_, onSilence.streamEnds 1 _ ended, ?_⟩
  · rw [onSilence.checked 1, ended]
  · exact onSilence.overflows (Link.fresh ()) (reached_silent 0)

def Port.mute : Port Unit :=
  { Port.silent with write := fun _ => pure none }

private theorem Port.mute_sendAll (bytes : List UInt8) (last : UInt8) :
    Port.mute.sendAll (bytes ++ [last]) () = .error (.failed (.port .write)) () := by
  cases bytes <;> rfl

/-- Where the port refuses the packet that tells an overflow, its failure takes the place
of the outcome. -/
theorem Responder.mute_hides_overflow :
    Port.mute.Honest ∧ Reached Port.mute (ofProtocol .v2_1)
        (Link.fresh () : Link 0 Unit) ∧
      (ofProtocol .v2_1).serveOne Port.mute (Link.fresh () : Link 0 Unit) =
        .error (.failed (.port .write)) (Link.fresh ()) ∧
      ¬∃ after, (ofProtocol .v2_1).serveOne Port.mute (Link.fresh () : Link 0 Unit) =
        .ok (.rejected .overflow) after := by
  have fails : (ofProtocol .v2_1).serveOne Port.mute (Link.fresh () : Link 0 Unit) =
      .error (.failed (.port .write)) (Link.fresh ()) := by
    have short : Packet.IsShort { tag := 'e'.toUInt8, data := [0x04] } :=
      Protocol.rejection_isShort .v2_1 .overflow _ List.mem_cons_self
    have pieces :=
      Protocol.pieces_of_packets (show Protocol.v2_1.isText = false from rfl) short
    have sends : Protocol.v2_1.send Port.mute 'e'.toUInt8 [0x04] () =
        .error (.failed (.port .write)) () := by
      simp only [Protocol.send, pieces, Port.sendPieces]
      exact bind_of_error (bind_of_error (Port.mute_sendAll _ _))
    have rejects : (ofProtocol .v2_1).reject Port.mute .overflow () =
        .error (.failed (.port .write)) () :=
      bind_of_error sends
    rw [serveOne_of_no_cells Port.mute StagingBuffer.wellFormed_empty]
    simp only [Component.lift, Link.worldComponent, Link.fresh, rejects]
    rfl
  refine ⟨Port.silent_honest, .start .v2_1 (), fails, ?_⟩
  rintro ⟨after, reported⟩
  rw [fails] at reported
  cases reported

end TriggerBench
