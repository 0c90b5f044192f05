import TriggerBench.Proofs.SafeServing
import TriggerBench.Proofs.UnitBoundaries

/-! # The staging capacity

A ring of `frameCapacity` cells is filled by the longest line to its last cell, and so
never overflows under the text protocols, whereas any smaller ring does. Stuffed packets
are a good deal shorter. What overflows the ring there is a series of bytes without a
zero, at a place where a unit begins.
-/

namespace TriggerBench

open Simulation
open StuffedFrame (Fills Boundary)

variable {capacity : Nat}

namespace Responder

structure LongestExpected {World : Type} (responder : Responder World)
    (longest : Nat) : Prop where
  bounded : ∀ command length, responder.expectedLength command = some length →
    length ≤ longest
  attained : ∃ command, responder.expectedLength command = some longest

def NeverOverflows {World : Type} (responder : Responder World) (port : Port World)
    (link : Link capacity World) : Prop :=
  ∀ turns after, responder.serveOneWithin port turns link ≠
    .ok (.rejected .overflow) after

section Polling

variable {Memory : Type} {responder : Responder (Bench Memory)}
  {link : Link capacity (Bench Memory)}

def Overflows (responder : Responder (Bench Memory))
    (link : Link capacity (Bench Memory)) : Prop :=
  (responder.poll link).1.result = .ok (.rejected .overflow)

/-! ## Text -/

private theorem answers_dropped_of_isText (text : responder.protocol.isText = true)
    {reason : Rejection} {rest : List UInt8}
    (answers : responder.Answers (.dropped reason) rest link) :
    (responder.poll link).1.result = .ok (.rejected reason) := by
  rcases answers.answered with ⟨middle, _, polled, _⟩
  rw [polled, answer, reject, Protocol.rejectionTag?_of_isText text]
  rfl

/-- A line of the longest command that goes on without a terminator overflows a ring that
is too small for it. -/
theorem short_ring_overflows (attends : responder.Attends)
    (text : responder.protocol.isText = true) {longest : Nat}
    (isLongest : responder.LongestExpected longest) (short : capacity < 2 * longest + 2) :
    ∃ stream, ∀ link : Link capacity (Bench Memory), link.staged.WellFormed →
      link.world.line.Flows →
      link.toCome = stream →
      ∃ times, responder.Overflows (responder.polls times link).2 := by
  rcases isLongest.attained with ⟨command, expected⟩
  refine ⟨command :: List.replicate capacity '0'.toUInt8, ?_⟩
  intro link wellFormed flows isStream
  have nothing : responder.examine (link.toCome.take capacity) = none := by
    rw [examine_eq_of_isText text, isStream]
    cases capacity with
    | zero => rfl
    | succ others =>
        have unterminated :
            TextFrame.Unterminated (List.replicate others '0'.toUInt8) := by
          intro byte member
          rw [(List.mem_replicate.mp member).2]
          rfl
        rw [List.take_succ_cons, List.take_replicate,
          Nat.min_eq_left (Nat.le_succ others)]
        apply TextFrame.examine_incomplete expected unterminated
        rw [List.length_replicate]
        omega
  have enough : capacity ≤ link.toCome.length := by
    rw [isStream, List.length_cons, List.length_replicate]
    exact Nat.le_succ capacity
  have next : responder.next? capacity link.toCome =
      some (.dropped .overflow, link.toCome.drop capacity) := by
    rw [next?_overflow_iff, trim_of_isText text]
    exact ⟨nothing, enough, rfl⟩
  rcases polls_answer attends wellFormed flows next with ⟨times, _, answers⟩
  exact ⟨times, answers_dropped_of_isText text answers⟩

/-! ## Packets -/

private theorem answers_overflow_tells (isPackets : responder.protocol = .v2_1)
    {rest : List UInt8} (answers : responder.Answers (.dropped .overflow) rest link) :
    (responder.poll link).1.Tells link.world.line (.rejected .overflow)
      (Stuffing.encode (ResponsePacket.raw 'e'.toUInt8 [0x04]) ++ [0]) := by
  rcases answers.answered with ⟨middle, read, polled, _⟩
  have unsent : Unsent middle.log :=
    fun event member => .inl (read.onlyReads event member)
  rw [polled]
  have told := answer_dropped_tells isPackets .overflow unsent.acceptedBytes_eq
  exact told.1.of_readFrom read

private theorem poll_overflow_fills (packets : responder.protocol.isText = false)
    (wellFormed : link.staged.WellFormed) {stream : List UInt8} {position : Nat}
    (ahead : responder.trim link.toCome = stream.drop position)
    (overflows : responder.Overflows link) : Fills capacity stream position := by
  have served := poll_served responder wellFormed
  rw [Overflows] at overflows
  generalize responder.poll link = polled at served overflows
  cases served with
  | @answered received rest middle _ next _ _ _ _ =>
      have isOverflow : received = .dropped .overflow := by
        cases answered : responder.answer Bench.port received middle.world with
        | error reason after =>
            rw [answered] at overflows
            cases overflows
        | ok outcome after =>
            rw [answered] at overflows
            cases overflows
            exact answer_overflow answered
      rw [isOverflow] at next
      exact (fills_of_overflow packets ahead next).1
  | starved => cases overflows

/-- A link on which an overflow is reported where a unit would begin, and enough bytes
follow to fill the ring without a zero among them, and nowhere else. -/
structure OverflowsWhereFilled (responder : Responder (Bench Memory))
    (link : Link capacity (Bench Memory)) : Prop where
  onlyThere : ∀ times, responder.Overflows (responder.polls times link).2 →
    ∃ position, Boundary capacity link.toCome position ∧
    Fills capacity link.toCome position ∧
      responder.trim (responder.polls times link).2.toCome = link.toCome.drop position
  there : ∀ position, Boundary capacity link.toCome position →
    Fills capacity link.toCome position →
    ∃ times, let before := (responder.polls times link).2
      responder.trim before.toCome = link.toCome.drop position ∧
        (responder.poll before).1.Tells before.world.line (.rejected .overflow)
          (Stuffing.encode (ResponsePacket.raw 'e'.toUInt8 [0x04]) ++ [0]) ∧
        (link.world.line.Faultless → responder.Overflows before)

private theorem poll_faultless (attends : responder.Attends)
    (wellFormed : link.staged.WellFormed) (faultless : link.world.line.Faultless) :
    (responder.poll link).2.world.line.Faultless := by
  have served := poll_served responder wellFormed
  generalize responder.poll link = polled at served ⊢
  cases served with
  | @answered received rest middle _ _ _ _ read _ =>
      rcases answer_counts attends received middle.world with
        ⟨writes, accepted, calls, isLine⟩
      exact isLine ▸ (read.faultless faultless).congr rfl rfl
  | starved _ _ _ _ read _ _ => exact read.faultless faultless

private theorem polls_faultless (attends : responder.Attends)
    (wellFormed : link.staged.WellFormed) (faultless : link.world.line.Faultless)
    (times : Nat) :
    (responder.polls times link).2.world.line.Faultless := by
  induction times generalizing link with
  | zero => exact faultless
  | succ times induction =>
      exact induction (poll_keeps attends wellFormed).wellFormed
        (poll_faultless attends wellFormed faultless)

private theorem overflowsWhereFilled (attends : responder.Attends)
    (isPackets : responder.protocol = .v2_1) (positive : 0 < capacity)
    (wellFormed : link.staged.WellFormed) (flows : link.world.line.Flows) :
    responder.OverflowsWhereFilled link := by
  have packets : responder.protocol.isText = false := by
    rw [isPackets]
    rfl
  constructor
  case onlyThere =>
      intro times overflows
      rcases polls_from_boundary attends packets wellFormed times with
        ⟨position, boundary, ahead⟩
      have kept := polls_keep attends wellFormed times
      exact ⟨position, boundary,
        poll_overflow_fills packets kept.wellFormed ahead overflows, ahead⟩
  case there =>
      intro position boundary fills
      rcases next?_of_fills packets positive fills with ⟨trimmed, next⟩
      rcases polls_reach_boundary attends packets positive wellFormed flows boundary with
        ⟨times, reached⟩
      have kept := polls_keep attends wellFormed times
      have nextThere := (next?_congr reached).trans next
      rcases polls_answer attends kept.wellFormed (kept.flows flows) nextThere with
        ⟨more, sameAhead, answers⟩
      rw [← polls_add] at sameAhead answers
      have tells := answers_overflow_tells isPackets answers
      refine ⟨times + more, sameAhead.trans (reached.trans trimmed), tells,
        fun faultless => ?_⟩
      exact (tells.of_faultless
        (polls_faultless attends wellFormed faultless (times + more))).1

/-- A frame that begins at a boundary is taken and carried out. -/
theorem takes_frame_at_boundary (attends : responder.Attends)
    (packets : responder.protocol.isText = false) (wellFormed : link.staged.WellFormed)
    (flows : link.world.line.Flows) {position : Nat}
    (boundary : Boundary capacity link.toCome position) {frame : Frame}
    {wire rest : List UInt8} (ahead : link.toCome.drop position = wire ++ rest)
    (written : frame.Written responder.protocol wire)
    (inCapacity : wire.length ≤ capacity) {entry : CommandEntry (Bench Memory)}
    (found : responder.table.find? frame.command = some entry)
    (fits : entry.length = frame.payload.length) {name : Nat} {handler : Handler Memory}
    (isAttended : entry.handler = Bench.attended name handler) :
    ∃ times, responder.Takes name handler frame wire rest
      (responder.polls times link).2 := by
  have positive : 0 < capacity :=
    Nat.lt_of_lt_of_le (List.length_pos_iff.mpr written.ne_nil) inCapacity
  rcases polls_reach_boundary attends packets positive wellFormed flows boundary with
    ⟨times, reached⟩
  rw [ahead, trim_written written] at reached
  have kept := polls_keep attends wellFormed times
  have next := next?_of_written written (expects_of_found found fits) inCapacity reached
  rcases polls_answer attends kept.wellFormed (kept.flows flows) next with
    ⟨more, sameAhead, answers⟩
  rw [← polls_add] at sameAhead answers
  rcases answers.answered with ⟨middle, read, polled, world⟩
  have carriesOut :=
    (answer_frame_carriesOut found fits isAttended read.onlyReads).of_readFrom read
  rw [← polled, ← world] at carriesOut
  exact ⟨times + more, sameAhead.trans reached, carriesOut, answers.left⟩

end Polling

/-! ## The capacity of a frame -/

structure CapacityExact (capacity : Nat) : Prop where
  /-- Under the text protocols a ring of `frameCapacity` cells never overflows, whatever
  has been registered. -/
  ofFrame :
    ∀ {World : Type} {port : Port World} {responder : Responder World}
      {link : Link capacity World}, port.Honest → Reached port responder link →
    responder.protocol.isText = true → capacity = frameCapacity →
    responder.NeverOverflows port link
  /-- Neither does one with room for the longest line that is expected. -/
  ofLongest :
    ∀ {World : Type} {port : Port World} {responder : Responder World}
      {link : Link capacity World}, port.Honest → Reached port responder link →
    responder.protocol.isText = true → ∀ longest, responder.LongestExpected longest →
    2 * longest + 2 ≤ capacity → responder.NeverOverflows port link
  /-- Any smaller ring overflows on some stream. -/
  smaller : ∀ {Memory : Type} {responder : Responder (Bench Memory)}, responder.Attends →
    responder.protocol.isText = true → ∀ longest, responder.LongestExpected longest →
    capacity < 2 * longest + 2 →
    ∃ stream, ∀ link : Link capacity (Bench Memory),
      link.staged.WellFormed → link.world.line.Flows →
      link.toCome = stream → ∃ times, responder.Overflows (responder.polls times link).2
  ofPackets :
    ∀ {Memory : Type} {responder : Responder (Bench Memory)}
      {link : Link capacity (Bench Memory)}, responder.Attends →
    responder.protocol = .v2_1 →
    link.staged.WellFormed → link.world.line.Flows → 0 < capacity →
    responder.OverflowsWhereFilled link
  /-- Every packet for a registered command, with the registered length, that begins where
  a unit begins is carried out. -/
  carriesOut :
    ∀ {Memory : Type} {responder : Responder (Bench Memory)}
      {link : Link capacity (Bench Memory)}, responder.Attends →
    responder.protocol = .v2_1 →
    link.staged.WellFormed → link.world.line.Flows → frameCapacity ≤ capacity →
    ∀ {position frame wire rest entry name} {handler : Handler Memory},
    Boundary capacity link.toCome position → link.toCome.drop position = wire ++ rest →
    frame.Written responder.protocol wire →
    responder.table.find? frame.command = some entry →
    entry.length = frame.payload.length → entry.handler = Bench.attended name handler →
    ∃ times, responder.Takes name handler frame wire rest (responder.polls times link).2 ∧
      ∀ reason, (responder.poll (responder.polls times link).2).1.result ≠
        .ok (.rejected reason)
  /-- A ring with at most one cell more than that holds no unit that is too long for a
  frame. -/
  units : capacity ≤ frameCapacity + 1 →
    ∀ {World : Type} {link : Link capacity World} {stuffed rest},
    link.Holds stuffed rest → stuffed.length ≤ frameCapacity

/-- Whatever the capacity is, text overflows a ring exactly if it is too small for the
longest line, and packets do where a unit would begin and enough bytes follow without a
zero. -/
theorem staging_capacity_exact (capacity : Nat) : CapacityExact capacity where
  ofFrame honest reached text isFrameCapacity :=
    serveOneWithin_ne_overflow text honest (reached.wellFormed honest) (fun _ _ =>
      expectedLength_le reached.built) (Nat.le_of_eq isFrameCapacity.symm)
  ofLongest honest reached text _ isLongest enough :=
    serveOneWithin_ne_overflow text honest (reached.wellFormed honest)
      isLongest.bounded enough
  smaller attends text _ isLongest short :=
    short_ring_overflows attends text isLongest short
  ofPackets attends isPackets wellFormed flows positive :=
    overflowsWhereFilled attends isPackets positive wellFormed flows
  carriesOut := by
    intro Memory responder link attends isPackets wellFormed flows enough position frame
      wire rest entry name handler boundary ahead written found fits isAttended
    have packets : responder.protocol.isText = false := by
      rw [isPackets]
      rfl
    have inCapacity : wire.length ≤ capacity := Nat.le_trans written.length_le enough
    rcases takes_frame_at_boundary attends packets wellFormed flows boundary ahead written
      inCapacity found fits isAttended with ⟨times, takes⟩
    exact ⟨times, takes, takes.carriesOut.result_ne.1⟩
  units := by
    intro small World link stuffed rest holds
    have staged := holds.wellFormed.length_toList
    have sizeLe := holds.wellFormed.size_le
    rw [holds.staged, List.length_append, List.length_cons] at staged
    omega

end Responder

private theorem Responder.ofOneCommand_longest :
    ofOneCommand.attended.LongestExpected 1 where
  bounded command length expected := by
    rw [expectedLength] at expected
    split at expected
    case h_1 entry found =>
        have member : entry ∈ ofOneCommand.attended.table.entries :=
          List.mem_of_find?_eq_some found
        cases List.mem_singleton.mp member
        cases expected
        exact Nat.le_refl 1
    case h_2 =>
        split at expected
        · cases expected
          exact Nat.zero_le 1
        · cases expected
  attained := ⟨0x70, rfl⟩

/-- A stream that overruns a ring of `frameCapacity` cells, and holds a packet behind the
next zero. -/
def Link.overrun : Link frameCapacity (Bench Unit) :=
  .fresh
    { Bench.plain with
      line :=
        { Bench.plain.line with
          deliveries :=
            [.bytes (List.replicate 130 0x31),
              .bytes [0x00, 0x02, 0x31, 0x04, 0x01, 0x41, 0x0B, 0x00]]
          readLimit := some 7 } }

def Link.ofThree (bytes : List UInt8) : Link 3 (Bench Unit) :=
  .fresh { Bench.plain with
    line := { Bench.plain.line with deliveries := [.bytes bytes] } }

theorem Responder.overrun_overflows :
    let wire := [0x02, 0x31, 0x04, 0x01, 0x41, 0x0B, 0x00]
    Reached Port.silent (ofProtocol .v1_1) (Link.fresh () : Link frameCapacity Unit) ∧
      (ofProtocol .v1_1).NeverOverflows Port.silent
        (Link.fresh () : Link frameCapacity Unit) ∧
      ofOneCommand.attended.LongestExpected 1 ∧
      (∃ bytes times,
        ofOneCommand.attended.Overflows
          (ofOneCommand.attended.polls times (Link.ofThree bytes)).2) ∧
      Link.overrun.toCome = List.replicate 130 0x31 ++ 0x00 :: wire ∧
      (∃ times, ofOnePacket.attended.Overflows
        (ofOnePacket.attended.polls times Link.overrun).2) ∧
      ∃ times, ofOnePacket.attended.Takes 0x31 (fun _ reply =>
        pure { status := 0, reply }) Frame.oneByte wire []
        (ofOnePacket.attended.polls times Link.overrun).2 := by
  intro wire
  have reached : Reached Port.silent (ofProtocol .v1_1)
      (Link.fresh () : Link frameCapacity Unit) := .start .v1_1 ()
  have ahead : Link.overrun.toCome = List.replicate 130 0x31 ++ 0x00 ::
    wire := by decide +kernel
  have isForm : StuffedFrame.form Frame.oneByte ++ [0] = wire := by decide +kernel
  have written : Frame.oneByte.Written ofOnePacket.attended.protocol wire := by
    rw [← isForm]
    exact .packet rfl
  have flows : Link.overrun.world.line.Flows := by
    intro noRead
    cases noRead
  have exactly := staging_capacity_exact frameCapacity
  have attends := ofOnePacket.attended_attends
  refine ⟨reached, exactly.ofFrame Port.silent_honest reached rfl rfl,
    ofOneCommand_longest, ?_, ahead, ?_, ?_⟩
  · rcases (staging_capacity_exact 3).smaller ofOneCommand.attended_attends rfl 1
      ofOneCommand_longest (by decide) with ⟨stream, overflowsThree⟩
    have flowsThree : (Link.ofThree stream).world.line.Flows := by
      intro noRead
      cases noRead
    have isStream : (Link.ofThree stream).toCome = stream := by
      change [] ++ (stream ++ []) = stream
      simp
    exact ⟨stream, overflowsThree (Link.ofThree stream) StagingBuffer.wellFormed_empty
      flowsThree isStream⟩
  · have fills : Fills frameCapacity Link.overrun.toCome 0 := by
      refine ⟨List.replicate 130 0x31, 0x00 :: wire, ahead, List.length_replicate, ?_⟩
      intro byte member
      rw [(List.mem_replicate.mp member).2]
      decide
    have overflows :=
      exactly.ofPackets attends rfl StagingBuffer.wellFormed_empty flows (by decide)
    rcases overflows.there 0 .start fills with ⟨times, _, _, reported⟩
    exact ⟨times, reported (Bench.plain_faultless.congr rfl rfl)⟩
  · have boundary : Boundary frameCapacity Link.overrun.toCome (130 + 1) := by
      apply Boundary.delimited
      rw [ahead]
      decide +kernel
    have isWire : Link.overrun.toCome.drop (130 + 1) = wire ++ [] := by
      rw [ahead]
      decide +kernel
    rcases exactly.carriesOut attends rfl StagingBuffer.wellFormed_empty flows (by decide)
      boundary isWire written rfl rfl rfl with ⟨times, takes, _⟩
    exact ⟨times, takes⟩

end TriggerBench
