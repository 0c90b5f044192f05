import TriggerBench.Proofs.Reporting
import TriggerBench.Proofs.StuffedFraming

/-! # Broken packets

A unit of a stuffed stream can be broken in several ways at once. The host is told of the
first flaw in a fixed order: a unit that is too long, a chain that reaches past its end, a
packet whose length byte does not account for all of it, and a wrong checksum. A unit
without any of them is the wire form of a frame, and goes on to the command's handler.
-/

namespace TriggerBench

open Simulation

namespace CommandPacket

def Misfits (packet : List UInt8) : Prop :=
  packet.length < 4 ∨ ∃ claimed, packet[2]? = some claimed ∧
    (maxPayload < claimed.toNat ∨ packet.length ≠ claimed.toNat + 4)

def Sums (packet : List UInt8) : Prop :=
  packet.getLast? = some (Checksum.ofBytes packet.dropLast)

private theorem misfits_cons_iff (command subcommand claimed : UInt8)
    (rest : List UInt8) :
    Misfits (command :: subcommand :: claimed :: rest) ↔
      maxPayload < claimed.toNat ∨ rest.length ≠ claimed.toNat + 1 := by
  simp only [Misfits, List.length_cons, List.getElem?_cons_succ, List.getElem?_cons_zero,
    Option.some.injEq, exists_eq_left']
  omega

theorem read_of_misfits {packet : List UInt8} (misfits : Misfits packet) :
    read packet = .error .length := by
  match packet with
  | [] | [_] | [_, _] => rfl
  | command :: subcommand :: claimed :: rest =>
      rw [misfits_cons_iff] at misfits
      simp only [read]
      split
      case isTrue => rfl
      case isFalse fits =>
          split
          case isTrue => rfl
          case isFalse enough =>
              have notOneLeft : (rest.drop claimed.toNat).length ≠ 1 := by
                rw [List.length_take] at enough
                rw [List.length_drop]
                omega
              split
              case h_1 payload checksum isPayload isLast =>
                  rw [isLast] at notOneLeft
                  exact absurd rfl notOneLeft
              case h_2 => rfl

/-- Whether a packet of the right length is accepted is a matter of its checksum. -/
theorem read_of_not_misfits {packet : List UInt8} (fits : ¬Misfits packet) :
    (¬Sums packet → read packet = .error .checksum) ∧
      (Sums packet → ∃ frame, read packet = .ok frame) := by
  match packet with
  | [] | [_] | [_, _] => exact absurd (.inl (by simp)) fits
  | command :: subcommand :: claimed :: rest =>
      rw [misfits_cons_iff, not_or, Nat.not_lt, Classical.not_not] at fits
      rcases fits with ⟨claimedLe, restLength⟩
      obtain ⟨data, checksum, rfl⟩ : ∃ data checksum, rest = data ++ [checksum] := by
        rcases List.eq_nil_or_concat rest with nothing | ⟨data, checksum, isConcat⟩
        · rw [nothing] at restLength
          cases restLength
        · exact ⟨data, checksum, isConcat.trans List.concat_eq_append⟩
      have dataLength : data.length = claimed.toNat := by simpa using restLength
      have isRead : read (command :: subcommand :: claimed :: (data ++ [checksum])) =
          if Checksum.ofBytes (command :: subcommand :: claimed :: data) = checksum then
            .ok { command, subcommand, payload := ⟨data, dataLength ▸ claimedLe⟩ }
          else .error .checksum := by
        simp [read, ← dataLength, Payload.ofList?,
          Nat.not_lt.mpr (dataLength ▸ claimedLe), dataLength ▸ claimedLe]
      have sums : Sums (command :: subcommand :: claimed :: (data ++ [checksum])) ↔
          Checksum.ofBytes (command :: subcommand :: claimed :: data) = checksum := by
        rw [Sums, ← List.cons_append, ← List.cons_append, ← List.cons_append,
          List.getLast?_concat, List.dropLast_concat, Option.some.injEq, eq_comm]
      rw [isRead, sums]
      exact ⟨fun wrong => if_neg wrong, fun matching => ⟨_, if_pos matching⟩⟩

end CommandPacket

namespace StuffedFrame

/-- The flaws of a unit in the order in which they are looked for: each supposes that the
unit has none of those before. With each goes the reason for which the unit is dropped,
and the code that tells the host. -/
inductive Flaw (stuffed : List UInt8) : Rejection → UInt8 → Prop
  | oversized (long : frameCapacity < stuffed.length) : Flaw stuffed .length 0x04
  | overrun (short : stuffed.length ≤ frameCapacity)
      (overruns : Stuffing.Overruns stuffed) :
      Flaw stuffed .framing 0x05
  | misfit {packet} (short : stuffed.length ≤ frameCapacity)
      (isForm : stuffed = Stuffing.encode packet)
      (misfits : CommandPacket.Misfits packet) : Flaw stuffed .length 0x04
  | miscount {packet} (short : stuffed.length ≤ frameCapacity)
      (isForm : stuffed = Stuffing.encode packet) (fits : ¬CommandPacket.Misfits packet)
      (wrong : ¬CommandPacket.Sums packet) : Flaw stuffed .checksum 0x02

variable {stuffed : List UInt8} {reason : Rejection} {code : UInt8}

private theorem Flaw.code_eq (flaw : Flaw stuffed reason code) : reason.code = code := by
  cases flaw <;> rfl

theorem Flaw.nonempty (flaw : Flaw stuffed reason code) : stuffed ≠ [] := by
  cases flaw with
  | oversized long =>
      rintro rfl
      simp at long
  | overrun _ overruns =>
      rintro rfl
      exact Stuffing.not_overruns_nil overruns
  | misfit _ isForm =>
      rw [isForm]
      exact Stuffing.encode_ne_nil _
  | miscount _ isForm =>
      rw [isForm]
      exact Stuffing.encode_ne_nil _

theorem Flaw.verdict_eq (flaw : Flaw stuffed reason code)
    (zeroFree : ∀ byte ∈ stuffed, byte ≠ 0) :
    verdict stuffed = .rejected reason := by
  have notEmpty : stuffed.isEmpty = false := List.isEmpty_eq_false_iff.mpr flaw.nonempty
  simp only [verdict, notEmpty, Bool.false_eq_true, if_false]
  cases flaw with
  | oversized long =>
      rw [if_pos long]
      rfl
  | overrun short overruns =>
      rw [if_neg (Nat.not_lt.mpr short),
        (Stuffing.decode?_eq_none_iff zeroFree).mpr overruns]
      rfl
  | misfit short isForm misfits =>
      rw [if_neg (Nat.not_lt.mpr short), isForm, Stuffing.decode?_encode]
      simp only [CommandPacket.read_of_misfits misfits]
  | miscount short isForm fits wrong =>
      rw [if_neg (Nat.not_lt.mpr short), isForm, Stuffing.decode?_encode]
      simp only [(CommandPacket.read_of_not_misfits fits).1 wrong]

/-- A unit that is not empty has a flaw, or is the wire form of a frame. -/
theorem flaw_or_form (nonempty : stuffed ≠ []) (zeroFree : ∀ byte ∈ stuffed, byte ≠ 0) :
    (∃ reason code, Flaw stuffed reason code) ∨ ∃ frame, stuffed = form frame := by
  rcases Nat.lt_or_ge frameCapacity stuffed.length with long | short
  · exact .inl ⟨_, _, .oversized long⟩
  · by_cases overruns : Stuffing.Overruns stuffed
    · exact .inl ⟨_, _, .overrun short overruns⟩
    · have inBlock : stuffed.length ≤ Stuffing.longestBlock :=
        Nat.le_trans short (by decide)
      obtain ⟨packet, unstuffed⟩ : ∃ packet, Stuffing.decode? stuffed = some packet := by
        rw [← Stuffing.decode?_eq_none_iff zeroFree] at overruns
        exact Option.ne_none_iff_exists'.mp overruns
      have isForm :=
        (Stuffing.decode?_eq_some_iff nonempty zeroFree inBlock packet).mp unstuffed
      by_cases misfits : CommandPacket.Misfits packet
      · exact .inl ⟨_, _, .misfit short isForm misfits⟩
      · by_cases sums : CommandPacket.Sums packet
        · rcases (CommandPacket.read_of_not_misfits misfits).2 sums with ⟨frame, isRead⟩
          exact .inr ⟨frame, by rw [isForm, form, CommandPacket.eq_write_of_read isRead]⟩
        · exact .inl ⟨_, _, .miscount short isForm misfits sums⟩

/-- What is handed on for a unit that is not empty: the reason of its flaw, or the frame
that it is the form of. -/
theorem received_of_unit (nonempty : stuffed ≠ [])
    (zeroFree : ∀ byte ∈ stuffed, byte ≠ 0) :
    ∃ received, (verdict stuffed).received? = some received ∧
      (∀ reason, received = .dropped reason ↔ ∃ code, Flaw stuffed reason code) ∧
      ∀ frame, received = .frame frame ↔ stuffed = form frame := by
  rcases received?_verdict nonempty zeroFree with ⟨received, handedOn, isFrame⟩
  refine ⟨received, handedOn, fun reason => ⟨?_, ?_⟩, isFrame⟩
  · rintro rfl
    rcases flaw_or_form nonempty zeroFree with ⟨known, code, flaw⟩ | ⟨frame, isForm⟩
    · rw [flaw.verdict_eq zeroFree] at handedOn
      cases handedOn
      exact ⟨code, flaw⟩
    · cases (isFrame frame).mpr isForm
  · rintro ⟨code, flaw⟩
    rw [flaw.verdict_eq zeroFree] at handedOn
    cases handedOn
    rfl

end StuffedFrame

variable {capacity : Nat}

namespace Responder

section Receiving

variable {World : Type} {responder : Responder World} {port : Port World}
  {link after : Link capacity World}

theorem receive_of_turn {received : Received}
    (turned : responder.turn port link = .ok (some received) after) :
    responder.receive port link = .ok received after := by
  rw [receive, get_bind, Link.turnBudget, receiveWithin, bind_of_ok turned]
  rfl

/-- A turn on a stray delimiter leaves receiving where it would be without the
delimiter. -/
theorem receive_of_skipped (turned : responder.turn port link = .ok none after)
    (oneTurnLess : link.turnBudget port = after.turnBudget port + 1) :
    responder.receive port link = responder.receive port after := by
  rw [receive, get_bind, oneTurnLess, receiveWithin, bind_of_ok turned, get_bind]

end Receiving

variable {Memory : Type}

structure Hands (responder : Responder (Bench Memory))
    (link : Link capacity (Bench Memory)) (stuffed : List UInt8)
    (staged : StagingBuffer capacity) (received : Received) : Prop where
  receives : responder.receive Bench.port (link.mapWorld Bench.cleared) =
    .ok received (Link.mapWorld Bench.cleared { link with staged })
  dropped_iff : ∀ reason, received = .dropped reason ↔
    ∃ code, StuffedFrame.Flaw stuffed reason code
  frame_iff : ∀ frame, received = .frame frame ↔ stuffed = StuffedFrame.form frame

structure Drops (link : Link capacity (Bench Memory)) (staged : StagingBuffer capacity)
    (reason : Rejection) (code : UInt8)
    (polled : Poll × Link capacity (Bench Memory)) : Prop where
  tells : polled.1.Tells link.world.line (.rejected reason)
    (Stuffing.encode (ResponsePacket.raw 'e'.toUInt8 [code]) ++ [0])
  /-- No handler is called, and nothing is read. -/
  onlySends : ∀ event ∈ polled.1.log, event.isTransmission
  memory : polled.2.world.memory = link.world.memory
  staged : polled.2.staged = staged

structure Disposes (responder : Responder (Bench Memory))
    (link : Link capacity (Bench Memory)) (stuffed rest : List UInt8)
    (staged : StagingBuffer capacity) : Prop where
  wellFormed : staged.WellFormed
  size_eq : staged.size + (stuffed.length + 1) = link.staged.size
  left : staged.toList = rest
  hands : stuffed ≠ [] → ∃ received, responder.Hands link stuffed staged received
  drops : ∀ reason code, StuffedFrame.Flaw stuffed reason code →
    Drops link staged reason code (responder.poll link)
  dispatches : ∀ frame, stuffed = StuffedFrame.form frame →
    responder.poll link =
      Poll.ofResult Link.world
        (Link.worldComponent.lift (responder.dispatch Bench.port frame)
        (Link.mapWorld Bench.cleared { link with staged }))
  passesOver : stuffed = [] → responder.poll link = responder.poll { link with staged }

section Disposing

variable {responder : Responder (Bench Memory)} {link : Link capacity (Bench Memory)}
  {stuffed : List UInt8} {staged : StagingBuffer capacity}

private theorem hands_of_turn (nonempty : stuffed ≠ [])
    (zeroFree : ∀ byte ∈ stuffed, byte ≠ 0)
    (turned : responder.turn Bench.port (link.mapWorld Bench.cleared) =
      .ok (StuffedFrame.verdict stuffed).received?
      (Link.mapWorld Bench.cleared { link with staged })) :
    ∃ received, responder.Hands link stuffed staged received := by
  rcases StuffedFrame.received_of_unit nonempty zeroFree with
    ⟨received, handedOn, isDropped, isFrame⟩
  rw [handedOn] at turned
  exact ⟨received, receive_of_turn turned, isDropped, isFrame⟩

private theorem Hands.drops (packets : responder.protocol = .v2_1) {reason : Rejection}
    (hands : responder.Hands link stuffed staged (.dropped reason)) :
    Drops link staged reason reason.code (responder.poll link) := by
  have unsent : acceptedBytes link.world.cleared.log = [] := rfl
  rcases answer_dropped_tells packets reason unsent with
    ⟨tells, events, transmitted, logged⟩
  have isLog :
      (Poll.ofResult id (responder.answer Bench.port (.dropped reason)
        link.world.cleared)).1.log = events :=
    logged
  have sameMemory :
      (Poll.ofResult id (responder.answer Bench.port (.dropped reason)
        link.world.cleared)).2.memory =
      link.world.memory := by
    rcases transmitted.counted with ⟨_, _, _, isAfter⟩
    rw [isAfter]
    rfl
  rw [poll_of_receive hands.receives, Poll.ofResult_lift]
  exact
    { tells
      onlySends := fun event member => transmitted.sending event (isLog ▸ member)
      memory := sameMemory
      staged := rfl }

private theorem poll_of_skipped (shrunk : staged.size + 1 = link.staged.size)
    (turned : responder.turn Bench.port (link.mapWorld Bench.cleared) =
      .ok none (Link.mapWorld Bench.cleared { link with staged })) :
    responder.poll link = responder.poll { link with staged } := by
  have oneTurnLess : Link.turnBudget Bench.port (link.mapWorld Bench.cleared) =
      Link.turnBudget Bench.port
        (Link.mapWorld Bench.cleared { link with staged }) + 1 := by
    simp only [Link.turnBudget, Link.mapWorld]
    omega
  simp only [poll, serveOne, bind, EStateM.bind, receive_of_skipped turned oneTurnLess]

/-- A staged unit is dropped exactly for its flaw, in the order of the flaws. A unit
without a flaw is dispatched, and one without any bytes is passed over. -/
theorem drops_exactly_broken_packets (packets : responder.protocol = .v2_1)
    {rest : List UInt8} (holds : link.Holds stuffed rest) :
    ∃ staged, responder.Disposes link stuffed rest staged := by
  have startHolds : (link.mapWorld Bench.cleared).Holds stuffed rest :=
    ⟨holds.wellFormed, holds.zeroFree, holds.staged⟩
  rcases turn_of_holds packets Bench.port startHolds with
    ⟨staged, turned, wellFormed, shrunk, left⟩
  have hands := fun nonempty => hands_of_turn nonempty holds.zeroFree turned
  refine ⟨staged, wellFormed, shrunk, left, hands, ?_, ?_, ?_⟩
  · intro reason code flaw
    rcases hands flaw.nonempty with ⟨received, handed⟩
    cases (handed.dropped_iff reason).mpr ⟨code, flaw⟩
    exact flaw.code_eq ▸ handed.drops packets
  · intro frame isForm
    have nonempty : stuffed ≠ [] := by
      rw [isForm]
      exact Stuffing.encode_ne_nil _
    rcases hands nonempty with ⟨received, handed⟩
    cases (handed.frame_iff frame).mpr isForm
    exact poll_of_receive handed.receives
  · rintro rfl
    exact poll_of_skipped shrunk turned

end Disposing

end Responder

/-- A ring whose contents wrap: a stuffed packet that claims one data byte more than it
has, and whose checksum is wrong as well. -/
def Link.misfitting : Link 8 (Bench Unit) where
  staged :=
    { cells := #v[0x41, 0x0C, 0x00, 0x02, 0x02, 0x31, 0x04, 0x02], start := 4, size := 8 }
  world := Bench.plain

private theorem Link.misfitting_holds :
    Link.misfitting.Holds [0x02, 0x31, 0x04, 0x02, 0x41, 0x0C] [0x02] where
  wellFormed := ⟨by decide, by decide⟩
  zeroFree := by simp
  staged := by decide +kernel

private theorem StuffedFrame.misfitting_flaw :
    Flaw [0x02, 0x31, 0x04, 0x02, 0x41, 0x0C] .length 0x04 :=
  @Flaw.misfit _ [0x31, 0x00, 0x02, 0x41, 0x0C] (by decide) (by decide)
    (.inr ⟨0x02, rfl, .inr (by decide)⟩)

theorem Responder.drops_misfitting_packet :
    Responder.ofOnePacket.attended.protocol = .v2_1 ∧
      Link.misfitting.Holds [0x02, 0x31, 0x04, 0x02, 0x41, 0x0C] [0x02] ∧
      StuffedFrame.Flaw [0x02, 0x31, 0x04, 0x02, 0x41, 0x0C] .length 0x04 ∧
      (Responder.ofOnePacket.attended.poll Link.misfitting).1.Tells
        Link.misfitting.world.line (.rejected .length)
        [0x05, 0x65, 0x01, 0x04, 0x92, 0x00] ∧
      (Responder.ofOnePacket.attended.poll Link.misfitting).2.staged.toList = [0x02] := by
  refine ⟨rfl, Link.misfitting_holds, StuffedFrame.misfitting_flaw, ?_⟩
  have packets : Responder.ofOnePacket.attended.protocol = .v2_1 := rfl
  rcases Responder.drops_exactly_broken_packets packets Link.misfitting_holds with
    ⟨staged, disposes⟩
  have drops := disposes.drops .length 0x04 StuffedFrame.misfitting_flaw
  have told := drops.tells
  have bytes : Stuffing.encode (ResponsePacket.raw 'e'.toUInt8 [0x04]) ++ [0] =
      [0x05, 0x65, 0x01, 0x04, 0x92, 0x00] := by
    decide +kernel
  rw [bytes] at told
  exact ⟨told, by rw [drops.staged, disposes.left]⟩

end TriggerBench
