import TriggerBench.Proofs.AnswerPackets
import TriggerBench.Proofs.Receiving
import TriggerBench.Proofs.Registrations
import TriggerBench.Proofs.TextBodies
import TriggerBench.Responder.Serve

/-! # Grammar of text frames

Which unit some staged text holds, and how long it is, told by positions: a command stands
at position 0, its digits behind it, and a terminator behind them.
-/

namespace TriggerBench

namespace TextFrame

def EndsAt (staged : List UInt8) (position : Nat) : Prop :=
  staged[position]? = some '\n'.toUInt8 ∨ staged[position]? = some '\r'.toUInt8

structure EndsEarly (staged : List UInt8) (length position : Nat) : Prop where
  behindCommand : 1 ≤ position
  amongDigits : position ≤ 2 * length
  ends : EndsAt staged position
  first : ∀ earlier, 1 ≤ earlier → earlier < position → ¬EndsAt staged earlier

def digits (staged : List UInt8) (length : Nat) : List UInt8 :=
  (staged.drop 1).take (2 * length)

/-- What is found at the start of some staged text when its command expects `length`
bytes. -/
structure Classified (command : UInt8) (length : Nat) (staged : List UInt8)
    (found : Option Examined) : Prop where
  early : ∀ position,
    found = some { verdict := .rejected .earlyTerminator, released := position + 1 } ↔
    EndsEarly staged length position
  incomplete : (¬∃ position, EndsEarly staged length position) →
    staged.length < 2 * length + 2 → found = none
  complete : (¬∃ position, EndsEarly staged length position) →
    2 * length + 2 ≤ staged.length →
    found = some { verdict := .rejected .missingTerminator, released := 2 * length + 2 } ∨
      found = some { verdict := .rejected .invalidHex, released := 2 * length + 2 } ∨
      ∃ payload, found =
        some { verdict := .frame { command, subcommand := 0, payload },
               released := 2 * length + 2 }
  missing : (¬∃ position, EndsEarly staged length position) →
    2 * length + 2 ≤ staged.length →
    (found = some { verdict := .rejected .missingTerminator,
                    released := 2 * length + 2 } ↔ ¬EndsAt staged (2 * length + 1))
  invalid : (¬∃ position, EndsEarly staged length position) →
    2 * length + 2 ≤ staged.length →
    (found = some { verdict := .rejected .invalidHex, released := 2 * length + 2 } ↔
      EndsAt staged (2 * length + 1) ∧ ∃ byte ∈ digits staged length, ¬Hex.IsDigit byte)
  frame : (¬∃ position, EndsEarly staged length position) →
    2 * length + 2 ≤ staged.length → ∀ payload,
    (found = some { verdict := .frame { command, subcommand := 0, payload },
                    released := 2 * length + 2 } ↔
      EndsAt staged (2 * length + 1) ∧ payload.length = length ∧
        (digits staged length).map Hex.capital = Hex.spell payload.bytes)

/-! ## Terminators by position -/

theorem isTerminator_iff (byte : UInt8) :
    isTerminator byte = true ↔ byte = '\n'.toUInt8 ∨ byte = '\r'.toUInt8 := by
  simp [isTerminator]

private theorem endsAt_iff_of_getElem? {staged : List UInt8} {position : Nat}
    {byte : UInt8} (isByte : staged[position]? = some byte) :
    EndsAt staged position ↔ isTerminator byte = true := by
  rw [isTerminator_iff, EndsAt, isByte, Option.some.injEq, Option.some.injEq]

theorem EndsAt.lt_length {staged : List UInt8} {position : Nat}
    (ends : EndsAt staged position) :
    position < staged.length := by
  rcases ends with isFeed | isReturn
  · exact (List.getElem?_eq_some_iff.mp isFeed).1
  · exact (List.getElem?_eq_some_iff.mp isReturn).1

variable {command : UInt8} {before rest : List UInt8}

private theorem endsAt_behind_iff (command : UInt8) (before rest : List UInt8)
    (byte : UInt8) :
    EndsAt (command :: (before ++ byte :: rest)) (before.length + 1) ↔
      isTerminator byte = true := by
  apply endsAt_iff_of_getElem?
  simp

private theorem not_endsAt_of_unterminated (free : Unterminated before)
    (rest : List UInt8) {position : Nat} (behind : 1 ≤ position)
    (inside : position ≤ before.length) :
    ¬EndsAt (command :: (before ++ rest)) position := by
  intro ends
  obtain ⟨offset, rfl⟩ := Nat.exists_eq_add_of_le' behind
  have within : offset < before.length := by omega
  have isByte : (command :: (before ++ rest))[offset + 1]? = some before[offset] := by
    rw [List.getElem?_cons_succ, List.getElem?_append_left within,
      List.getElem?_eq_getElem within]
  rw [endsAt_iff_of_getElem? isByte, free _ (List.getElem_mem within)] at ends
  cases ends

private theorem endsEarly_iff {terminator : UInt8} {length : Nat}
    (free : Unterminated before) (ends : isTerminator terminator = true)
    (inside : before.length < 2 * length) (position : Nat) :
    EndsEarly (command :: (before ++ terminator :: rest)) length position ↔
      position = before.length + 1 := by
  have endsHere := (endsAt_behind_iff command before rest terminator).mpr ends
  constructor
  · intro early
    rcases Nat.lt_trichotomy position (before.length + 1) with sooner | here | later
    · exact absurd early.ends
        (not_endsAt_of_unterminated free _ early.behindCommand (by omega))
    · exact here
    · exact absurd endsHere (early.first _ (by omega) later)
  · rintro rfl
    exact
      { behindCommand := by omega
        amongDigits := by omega
        ends := endsHere
        first := fun earlier behind sooner =>
          not_endsAt_of_unterminated free _ behind (by omega) }

private theorem not_endsEarly_of_all {length : Nat} (free : Unterminated before)
    (all : before.length = 2 * length) (rest : List UInt8) (position : Nat) :
    ¬EndsEarly (command :: (before ++ rest)) length position := by
  intro early
  have among := early.amongDigits
  exact not_endsAt_of_unterminated free rest early.behindCommand (by omega) early.ends

private theorem not_endsEarly_of_unterminated {length : Nat} {bytes : List UInt8}
    (free : Unterminated bytes) (position : Nat) :
    ¬EndsEarly (command :: bytes) length position := by
  intro early
  have within := early.ends.lt_length
  have inside : position ≤ bytes.length := by
    rw [List.length_cons] at within
    omega
  apply not_endsAt_of_unterminated free [] early.behindCommand inside
  rw [List.append_nil]
  exact early.ends

/-! ## Units -/

private theorem verdict_eq_rejected_iff (command : UInt8)
    (outcome : Except Rejection Payload) (reason : Rejection) :
    verdict command outcome = .rejected reason ↔ outcome = .error reason := by
  cases outcome <;> simp [verdict]

theorem verdict_eq_frame_iff (command : UInt8) (outcome : Except Rejection Payload)
    (payload : Payload) :
    verdict command outcome = .frame { command, subcommand := 0, payload } ↔
      outcome = .ok payload := by
  cases outcome <;> simp [verdict]

variable {expectedLength : UInt8 → Option Nat} {length : Nat}

theorem examine_early (expected : expectedLength command = some length)
    {terminator : UInt8} (free : Unterminated before)
    (ends : isTerminator terminator = true) (inside : before.length < 2 * length) :
    examine expectedLength (command :: (before ++ terminator :: rest)) =
      some { verdict := .rejected .earlyTerminator, released := before.length + 2 } := by
  simp [examine, expected, readBody?_early free ends inside, verdict]

theorem examine_complete (expected : expectedLength command = some length)
    (free : Unterminated before) (all : before.length = 2 * length) (last : UInt8) :
    examine expectedLength (command :: (before ++ last :: rest)) =
      some
        { verdict := verdict command ((Body.empty.addAll before).close last)
          released := 2 * length + 2 } := by
  simp [examine, expected, readBody?_digits free all]

theorem examine_incomplete (expected : expectedLength command = some length)
    (free : Unterminated rest) (short : rest.length ≤ 2 * length) :
    examine expectedLength (command :: rest) = none := by
  simp [examine, expected, readBody?_short free short]

theorem length_of_spelled {payload : Payload} (all : before.length = 2 * length)
    (spelled : before.map Hex.capital = Hex.spell payload.bytes) :
    payload.length = length := by
  have sameLength := congrArg List.length spelled
  rw [List.length_map, Hex.length_spell, all] at sameLength
  simp only [Payload.length]
  omega

/-- A complete unit is classified by the byte behind its digits first, and then by the
digits. -/
theorem classified_of_all (room : length ≤ maxPayload) (free : Unterminated before)
    (all : before.length = 2 * length) (last : UInt8) :
    Classified command length (command :: (before ++ last :: rest))
      (some
        { verdict := verdict command ((Body.empty.addAll before).close last)
          released := 2 * length + 2 }) := by
  have endsAt : EndsAt (command :: (before ++ last :: rest)) (2 * length + 1) ↔
      isTerminator last = true := by
    rw [← all]
    exact endsAt_behind_iff command before rest last
  have isDigits : digits (command :: (before ++ last :: rest)) length = before := by
    simp [digits, ← all]
  constructor
  case early =>
      intro position
      apply iff_of_false
      · rw [Option.some.injEq, Examined.mk.injEq, verdict_eq_rejected_iff]
        rintro ⟨isEarly, _⟩
        rcases Body.close_cases (Body.empty.addAll before) last with
          isMissing | isInvalid | ⟨payload, isPayload⟩
        · cases isMissing.symm.trans isEarly
        · cases isInvalid.symm.trans isEarly
        · cases isPayload.symm.trans isEarly
      · exact not_endsEarly_of_all free all _ position
  case incomplete =>
      intro _ short
      simp only [List.length_cons, List.length_append] at short
      omega
  case complete =>
      intro _ _
      rcases Body.close_cases (Body.empty.addAll before) last with
        isMissing | isInvalid | ⟨payload, isPayload⟩
      · exact .inl (by rw [isMissing]; rfl)
      · exact .inr (.inl (by rw [isInvalid]; rfl))
      · exact .inr (.inr ⟨payload, by rw [isPayload]; rfl⟩)
  case missing =>
      intro _ _
      rw [Option.some.injEq, Examined.mk.injEq, verdict_eq_rejected_iff,
        Body.close_eq_missing_iff, endsAt]
      simp
  case invalid =>
      intro _ _
      rw [Option.some.injEq, Examined.mk.injEq, verdict_eq_rejected_iff,
        Body.close_eq_invalid_iff, Body.addAll_invalid_iff all room, endsAt, isDigits]
      simp
  case frame =>
      intro _ _ payload
      rw [Option.some.injEq, Examined.mk.injEq, verdict_eq_frame_iff,
        Body.close_eq_ok_iff, Body.addAll_spells_iff all room, endsAt, isDigits]
      constructor
      · rintro ⟨⟨ends, spelled⟩, _⟩
        exact ⟨ends, length_of_spelled all spelled, spelled⟩
      · rintro ⟨ends, _, spelled⟩
        exact ⟨⟨ends, spelled⟩, rfl⟩

private theorem classified (expected : expectedLength command = some length)
    (room : length ≤ maxPayload) (rest : List UInt8) :
    Classified command length (command :: rest)
      (examine expectedLength (command :: rest)) := by
  rcases unterminated_cases (2 * length) rest with
    ⟨before, terminator, behind, rfl, free, ends, inside⟩ | ⟨before, last, behind, rfl,
      free, all⟩ | ⟨free, short⟩
  · have isEarly : ∀ position,
        EndsEarly (command :: (before ++ terminator :: behind)) length position ↔
        position = before.length + 1 := endsEarly_iff free ends inside
    have exists_early : ∃ position,
        EndsEarly (command :: (before ++ terminator :: behind)) length position :=
      ⟨before.length + 1, (isEarly _).mpr rfl⟩
    rw [examine_early expected free ends inside]
    refine ⟨fun position => ?_, fun none => absurd exists_early none, fun none =>
      absurd exists_early none, fun none => absurd exists_early none, fun none =>
      absurd exists_early none, fun none => absurd exists_early none⟩
    rw [isEarly, Option.some.injEq, Examined.mk.injEq]
    constructor
    · rintro ⟨_, sameLength⟩
      omega
    · rintro rfl
      exact ⟨rfl, rfl⟩
  · rw [examine_complete expected free all]
    exact classified_of_all room free all last
  · rw [examine_incomplete expected free short]
    have tooShort : ¬2 * length + 2 ≤ (command :: rest).length := by
      rw [List.length_cons]
      omega
    refine ⟨fun position => ?_, fun _ _ => rfl, fun _ long => absurd long tooShort,
      fun _ long => absurd long tooShort, fun _ long => absurd long tooShort,
      fun _ long => absurd long tooShort⟩
    exact iff_of_false (by simp) (not_endsEarly_of_unterminated free position)

theorem Classified.cases {staged : List UInt8} {found : Option Examined}
    (classified : Classified command length staged found) {examined : Examined}
    (isFound : found = some examined) :
    examined.verdict = .rejected .earlyTerminator ∨
      examined.verdict = .rejected .missingTerminator ∨
      examined.verdict = .rejected .invalidHex ∨
      ∃ payload, examined.verdict = .frame { command, subcommand := 0, payload } ∧
      payload.length = length := by
  subst isFound
  by_cases early : ∃ position, EndsEarly staged length position
  · rcases early with ⟨position, isEarly⟩
    cases (classified.early position).mpr isEarly
    exact .inl rfl
  · by_cases short : staged.length < 2 * length + 2
    · cases classified.incomplete early short
    · have long : 2 * length + 2 ≤ staged.length := Nat.not_lt.mp short
      rcases classified.complete early long with
        isMissing | isInvalid | ⟨payload, isFrame⟩
      · cases isMissing
        exact .inr (.inl rfl)
      · cases isInvalid
        exact .inr (.inr (.inl rfl))
      · have lengthOf := ((classified.frame early long payload).mp isFrame).2.1
        cases isFrame
        exact .inr (.inr (.inr ⟨payload, rfl, lengthOf⟩))

private theorem not_isTerminator_of_isDigit {byte : UInt8} (isDigit : Hex.IsDigit byte) :
    isTerminator byte = false := by
  cases ends : isTerminator byte with
  | false => rfl
  | true =>
      rcases (isTerminator_iff byte).mp ends with rfl | rfl
      · exact absurd isDigit (by decide)
      · exact absurd isDigit (by decide)

/-- Any spelling of a payload of the expected length, with either terminator behind it, is
a frame. -/
theorem examine_spelled {payload : Payload}
    (expected : expectedLength command = some payload.length) {spelling : List UInt8}
    (spelled : spelling.map Hex.capital = Hex.spell payload.bytes) {terminator : UInt8}
    (ends : isTerminator terminator = true) :
    examine expectedLength (command :: (spelling ++ terminator :: rest)) =
      some { verdict := .frame { command, subcommand := 0, payload },
             released := 2 * payload.length + 2 } := by
  have free : Unterminated spelling := fun byte member =>
    not_isTerminator_of_isDigit (Hex.isDigit_of_spell spelled byte member)
  have all : spelling.length = 2 * payload.length := by
    rw [← List.length_map Hex.capital, spelled, Hex.length_spell]
    rfl
  have closed : (Body.empty.addAll spelling).close terminator = .ok payload :=
    (Body.close_eq_ok_iff _ _ _).mpr
      ⟨ends, (Body.addAll_spells_iff all payload.length_le payload).mpr spelled⟩
  rw [examine_complete expected free all, closed]
  rfl

end TextFrame

/-! ## What is received under the text protocols -/

def Rejection.OfPacket (reason : Rejection) : Prop :=
  reason = .framing ∨ reason = .checksum ∨ reason = .length

variable {capacity : Nat} {World : Type}

namespace Responder

def HandsOnText (responder : Responder World) : Received → Prop
  | .frame frame =>
      frame.subcommand = 0 ∧ responder.expectedLength frame.command =
          some frame.payload.length
  | .dropped reason => ¬reason.OfPacket

variable {responder : Responder World}

theorem examine_eq_of_isText (text : responder.protocol.isText = true)
    (staged : List UInt8) :
    responder.examine staged = TextFrame.examine responder.expectedLength staged := by
  rw [examine, if_pos text]

private theorem handsOnText_of_comesOf (text : responder.protocol.isText = true)
    (built : responder.table.Built) {bytes : List UInt8} {received : Received}
    (comesOf : responder.ComesOf bytes received) :
    responder.HandsOnText received := by
  rcases comesOf with rfl | ⟨examined, found, handedOn⟩
  · simp [HandsOnText, Rejection.OfPacket]
  · rw [examine_eq_of_isText text] at found
    cases bytes with
    | nil => simp [TextFrame.examine] at found
    | cons command rest =>
        cases expected : responder.expectedLength command with
        | none =>
            simp only [TextFrame.examine, expected, Option.some.injEq] at found
            subst found
            cases handedOn
            simp [HandsOnText, Rejection.OfPacket]
        | some length =>
            have room := expectedLength_le built expected
            have known := (TextFrame.classified expected room rest).cases found
            rcases known with
              verdict | verdict | verdict | ⟨payload, verdict, lengthOf⟩ <;>
              rw [verdict] at handedOn <;> cases handedOn
            · simp [HandsOnText, Rejection.OfPacket]
            · simp [HandsOnText, Rejection.OfPacket]
            · simp [HandsOnText, Rejection.OfPacket]
            · exact ⟨rfl, expected.trans (congrArg some lengthOf.symm)⟩

private theorem not_ofPacket_of_settle {received : Received}
    (handedOn : responder.HandsOnText received) {world after : World}
    {packets : List Packet} {reason : Rejection}
    (settled : responder.settle received world = .ok (packets, .rejected reason) after) :
    ¬reason.OfPacket := by
  cases received with
  | dropped known =>
      cases settled
      exact handedOn
  | frame frame =>
      have expected := handedOn.2
      rw [expectedLength] at expected
      rw [settle] at settled
      cases found : responder.table.find? frame.command with
      | some entry =>
          simp only [found, Option.some.injEq] at expected settled
          simp only [expected, bne_self_eq_false, Bool.false_eq_true, if_false] at settled
          rcases ok_of_bind settled with ⟨answer, middle, _, handled⟩
          cases handled
      | none =>
          simp only [found] at settled
          split at settled
          · cases settled
          · cases settled
            simp [Rejection.OfPacket]

private theorem not_ofPacket_of_serveOne (text : responder.protocol.isText = true)
    (built : responder.table.Built) {port : Port World} {link after : Link capacity World}
    {reason : Rejection}
    (served : responder.serveOne port link = .ok (.rejected reason) after) :
    ¬reason.OfPacket := by
  rcases ok_of_bind served with ⟨received, middle, ran, answered⟩
  rcases receive_comesOf ran with ⟨bytes, comesOf⟩
  rcases ok_of_lift answered with ⟨world, answered, _⟩
  rw [answer_eq] at answered
  rcases ok_of_bind answered with ⟨⟨packets, outcome⟩, settledWorld, settled, sent⟩
  rcases ok_of_bind sent with ⟨_, sentWorld, _, isOutcome⟩
  cases isOutcome
  exact not_ofPacket_of_settle (handsOnText_of_comesOf text built comesOf) settled

private theorem examine_unknown_iff (text : responder.protocol.isText = true)
    (built : responder.table.Built) (command : UInt8) (rest : List UInt8) :
    responder.examine (command :: rest) =
        some { verdict := .rejected (.unknownCommand command), released := 1 } ↔
      responder.expectedLength command = none := by
  rw [examine_eq_of_isText text]
  constructor
  · intro found
    cases expected : responder.expectedLength command with
    | none => rfl
    | some length =>
        have known :=
          (TextFrame.classified expected (expectedLength_le built expected)
            rest).cases found
        simp at known
  · intro unknown
    simp [TextFrame.examine, unknown]

structure AcceptsLines (responder : Responder World) (port : Port World)
    (capacity : Nat) : Prop where
  unknown : ∀ (command : UInt8) (rest : List UInt8),
    responder.examine (command :: rest) =
      some { verdict := .rejected (.unknownCommand command), released := 1 } ↔
      responder.expectedLength command = none
  /-- Text behind a known command is classified by its positions, whatever the table
  expects. -/
  classified : ∀ (command : UInt8) (rest : List UInt8) (length : Nat),
    responder.expectedLength command = some length →
    TextFrame.Classified command length (command :: rest)
      (responder.examine (command :: rest))
  /-- A unit is released with exactly the bytes that it was classified for. -/
  released : ∀ link : Link capacity World, link.staged.WellFormed →
    ∀ examined, responder.examine link.staged.toList = some examined →
    ∃ staged, responder.turn port link =
      .ok examined.verdict.received? { link with staged } ∧
      staged.WellFormed ∧ staged.size + examined.released = link.staged.size ∧
      staged.toList = link.staged.toList.drop examined.released
  awaited : ∀ link : Link capacity World, link.staged.WellFormed →
    responder.examine link.staged.toList = none → link.staged.isFull = false →
    responder.turn port link = (Link.refill port >>= fun _ => pure none) link
  /-- Every spelling of a payload is read back as the payload. -/
  spelled :
    ∀ (command : UInt8) (payload : Payload) (spelling : List UInt8)
      (terminator : UInt8) (rest : List UInt8),
    responder.expectedLength command = some payload.length →
    spelling.map Hex.capital = Hex.spell payload.bytes →
    (terminator = '\n'.toUInt8 ∨ terminator = '\r'.toUInt8) →
    responder.examine (command :: (spelling ++ terminator :: rest)) =
      some { verdict := .frame { command, subcommand := 0, payload },
             released := 2 * payload.length + 2 }
  expected : ∀ (link after : Link capacity World) (frame : Frame),
    responder.receive port link = .ok (.frame frame) after →
    frame.subcommand = 0 ∧ responder.expectedLength frame.command =
      some frame.payload.length
  /-- No poll finds a fault that only packets have. -/
  faults : ∀ (link after : Link capacity World) (reason : Rejection),
    responder.serveOne port link = .ok (.rejected reason) after →
    reason ≠ .framing ∧ reason ≠ .checksum ∧ reason ≠ .length

/-- Under the text protocols exactly the spelled lines are accepted, and anything else is
turned away for a reason that follows from the positions of its bytes. -/
theorem accepts_exactly_spelled_lines (text : responder.protocol.isText = true)
    (built : responder.table.Built) (port : Port World) :
    responder.AcceptsLines port capacity where
  unknown := examine_unknown_iff text built
  classified command rest length expected := by
    rw [examine_eq_of_isText text]
    exact TextFrame.classified expected (expectedLength_le built expected) rest
  released link wellFormed examined found := turn_of_examined port wellFormed found
  awaited link _ := turn_of_waiting
  spelled command payload spelling terminator rest expected spelled ends := by
    rw [examine_eq_of_isText text]
    exact TextFrame.examine_spelled expected spelled
      ((TextFrame.isTerminator_iff terminator).mpr ends)
  expected link after frame ran := by
    rcases receive_comesOf ran with ⟨bytes, comesOf⟩
    exact handsOnText_of_comesOf text built comesOf
  faults link after reason served := by
    simpa [Rejection.OfPacket] using not_ofPacket_of_serveOne text built served

def ofOneCommand : Responder Unit where
  protocol := .v1_1
  table :=
    { entries := [{ command := 0x70, length := 1,
                    handler := fun _ reply => pure { status := 0, reply } }] }
  answersVersion := true

private theorem ofOneCommand_built : ofOneCommand.table.Built :=
  @CommandTable.Built.registered _ _ _
    { command := 0x70, length := 1,
      handler := fun _ reply => pure { status := 0, reply } } .empty rfl

theorem accepts_mixed_case_line :
    ofOneCommand.protocol.isText = true ∧ ofOneCommand.table.Built ∧
      ofOneCommand.examine [0x70, 'd'.toUInt8, 'E'.toUInt8, '\r'.toUInt8, 0x70] =
        some
          { verdict := .frame
              { command := 0x70, subcommand := 0, payload := ⟨[0xDE], by decide⟩ }
            released := 4 } := by
  refine ⟨rfl, ofOneCommand_built, ?_⟩
  have lines :=
    @accepts_exactly_spelled_lines 8 Unit ofOneCommand rfl ofOneCommand_built Port.silent
  exact lines.spelled 0x70 ⟨[0xDE], by decide⟩ ['d'.toUInt8, 'E'.toUInt8] '\r'.toUInt8
    [0x70] rfl (by decide) (.inr rfl)

end Responder

end TriggerBench
