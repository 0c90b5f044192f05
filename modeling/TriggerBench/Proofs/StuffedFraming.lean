import TriggerBench.Proofs.BlockChains
import TriggerBench.Proofs.Receiving

/-! # Framing of stuffed commands

A packet is read back exactly if it is what writing a frame produces, and a stuffed frame
is accepted exactly if it is the stuffed form of such a packet. Acceptance is therefore a
bijection between frames and accepted byte strings.
-/

namespace TriggerBench

namespace CommandPacket

theorem length_write (frame : Frame) :
    (write frame).length = frame.payload.length + 4 := by
  simp [write, Payload.length]

private theorem read_write (frame : Frame) : read (write frame) = .ok frame := by
  rcases frame with ⟨command, subcommand, ⟨bytes, fits⟩⟩
  have lengthValue : (UInt8.ofNat bytes.length).toNat = bytes.length := by
    apply UInt8.toNat_ofNat_of_lt'
    change bytes.length < 256
    simp only [maxPayload] at fits
    omega
  simp [write, read, Payload.length, Payload.ofList?, lengthValue, fits,
    Nat.not_lt.mpr fits]

theorem eq_write_of_read {packet : List UInt8} {frame : Frame}
    (accepted : read packet = .ok frame) :
    packet = write frame := by
  match packet with
  | [] | [_] | [_, _] => simp [read] at accepted
  | command :: subcommand :: length :: rest =>
      simp only [read] at accepted
      split at accepted
      case isTrue => cases accepted
      case isFalse =>
          split at accepted
          case isTrue => cases accepted
          case isFalse enough =>
              have dataLength : (rest.take length.toNat).length = length.toNat := by
                rw [List.length_take] at enough ⊢
                omega
              split at accepted
              case h_2 => cases accepted
              case h_1 payload checksum isPayload isLast =>
                  split at accepted
                  case isFalse => cases accepted
                  case isTrue matching =>
                      simp only [Payload.ofList?] at isPayload
                      split at isPayload
                      case isFalse => cases isPayload
                      case isTrue fits =>
                          cases accepted
                          cases isPayload
                          have restored : rest = rest.take length.toNat ++
                              [checksum] := by
                            rw [← isLast, List.take_append_drop]
                          simp only [write, Payload.length, dataLength, UInt8.ofNat_toNat,
                            matching, List.cons_append]
                          rw [← restored]

theorem read_eq_ok_iff (packet : List UInt8) (frame : Frame) :
    read packet = .ok frame ↔ packet = write frame := by
  constructor
  · exact eq_write_of_read
  · rintro rfl
    exact read_write frame

end CommandPacket

namespace StuffedFrame

def form (frame : Frame) : List UInt8 :=
  Stuffing.encode (CommandPacket.write frame)

theorem length_form (frame : Frame) : (form frame).length = frame.payload.length + 5 := by
  have fits : frame.payload.length ≤ maxPayload := frame.payload.length_le
  have short : (CommandPacket.write frame).length < Stuffing.longestBlock := by
    rw [CommandPacket.length_write]
    simp only [maxPayload] at fits
    simp only [Stuffing.longestBlock]
    omega
  rw [form, Stuffing.length_encode short, CommandPacket.length_write]

theorem length_form_le (frame : Frame) : (form frame).length ≤ frameCapacity := by
  have fits : frame.payload.length ≤ maxPayload := frame.payload.length_le
  rw [length_form]
  simp only [maxPayload, frameCapacity] at fits ⊢
  omega

/-- The bytes before a delimiter are accepted exactly if they are the wire form of a
frame. -/
theorem verdict_eq_frame_iff {stuffed : List UInt8}
    (zeroFree : ∀ byte ∈ stuffed, byte ≠ 0) (frame : Frame) :
    verdict stuffed = .frame frame ↔ stuffed = form frame := by
  constructor
  · intro accepted
    simp only [verdict] at accepted
    split at accepted
    case isTrue => cases accepted
    case isFalse nonempty =>
        split at accepted
        case isTrue => cases accepted
        case isFalse fits =>
            split at accepted
            case h_1 => cases accepted
            case h_2 packet unstuffed =>
                split at accepted
                case h_2 => cases accepted
                case h_1 known isRead =>
                    cases accepted
                    have short : stuffed.length ≤ Stuffing.longestBlock := by
                      simp only [frameCapacity, maxPayload] at fits
                      simp only [Stuffing.longestBlock]
                      omega
                    have isForm :=
                      (Stuffing.decode?_eq_some_iff (by simpa using nonempty) zeroFree
                        short packet).mp unstuffed
                    rw [isForm, form, CommandPacket.eq_write_of_read isRead]
  · rintro rfl
    have nonempty : (form frame).isEmpty = false :=
      List.isEmpty_eq_false_iff.mpr (Stuffing.encode_ne_nil _)
    simp only [verdict, nonempty, Bool.false_eq_true, if_false,
      Nat.not_lt.mpr (length_form_le frame)]
    simp only [form, Stuffing.decode?_encode, CommandPacket.read_write]

end StuffedFrame

variable {capacity : Nat} {World : Type}

structure Link.Holds (link : Link capacity World) (stuffed rest : List UInt8) : Prop where
  wellFormed : link.staged.WellFormed
  zeroFree : ∀ byte ∈ stuffed, byte ≠ 0
  staged : link.staged.toList = stuffed ++ 0 :: rest

/-- A turn on a delimited unit hands on its verdict and releases the unit with its
delimiter, and nothing else. -/
theorem Responder.turn_of_holds {responder : Responder World}
    (packets : responder.protocol = .v2_1) (port : Port World)
    {link : Link capacity World} {stuffed rest : List UInt8}
    (holds : link.Holds stuffed rest) :
    ∃ staged, responder.turn port link = .ok (StuffedFrame.verdict stuffed).received?
        { link with staged } ∧
      staged.WellFormed ∧ staged.size + (stuffed.length + 1) = link.staged.size ∧
      staged.toList = rest := by
  have found : responder.examine link.staged.toList =
      some { verdict := StuffedFrame.verdict stuffed,
             released := stuffed.length + 1 } := by
    rw [Responder.examine, packets, holds.staged]
    exact StuffedFrame.examine_delimited holds.zeroFree rest
  rcases turn_of_examined port holds.wellFormed found with
    ⟨staged, turned, wellFormed, shrunk, left⟩
  refine ⟨staged, turned, wellFormed, shrunk, ?_⟩
  rw [left, holds.staged]
  simp

/-- What is handed on for a unit that is not empty is a frame exactly if the unit is the
frame's wire form. -/
theorem StuffedFrame.received?_verdict {stuffed : List UInt8} (nonempty : stuffed ≠ [])
    (zeroFree : ∀ byte ∈ stuffed, byte ≠ 0) :
    ∃ received, (verdict stuffed).received? = some received ∧
      ∀ frame, received = .frame frame ↔ stuffed = form frame := by
  cases isVerdict : verdict stuffed with
  | skipped => exact absurd ((verdict_eq_skipped_iff stuffed).mp isVerdict) nonempty
  | rejected reason =>
      refine ⟨.dropped reason, rfl, fun frame => ?_⟩
      rw [← verdict_eq_frame_iff zeroFree frame, isVerdict]
      simp
  | frame accepted =>
      refine ⟨.frame accepted, rfl, fun frame => ?_⟩
      rw [← verdict_eq_frame_iff zeroFree frame, isVerdict]
      simp

structure Responder.AcceptsPackets (responder : Responder World) (port : Port World)
    (capacity : Nat) : Prop where
  /-- A unit yields a frame exactly if it stuffs the frame's packet, whose last byte is
  the checksum of those before it. It is released with its delimiter in any case. -/
  accepted : ∀ (link : Link capacity World) (stuffed rest : List UInt8),
    link.Holds stuffed rest → stuffed ≠ [] →
    ∃ received staged, responder.turn port link =
      .ok (some received) { link with staged } ∧
      staged.WellFormed ∧ staged.size + (stuffed.length + 1) = link.staged.size ∧
      staged.toList = rest ∧
      ∀ command subcommand payload, received = .frame { command, subcommand, payload } ↔
        stuffed = Stuffing.encode
          ([command, subcommand, UInt8.ofNat payload.length] ++ payload.bytes ++
          [Checksum.ofBytes ([command, subcommand, UInt8.ofNat payload.length] ++
            payload.bytes)])
  /-- Every frame is accepted in its wire form. -/
  framed : ∀ (frame : Frame) (link : Link capacity World) (rest : List UInt8),
    link.staged.WellFormed → link.staged.toList = StuffedFrame.form frame ++ 0 :: rest →
    ∃ staged, responder.turn port link = .ok (some (.frame frame)) { link with staged } ∧
    staged.toList = rest
  /-- No two units yield the same frame. -/
  unique : ∀ (frame : Frame) (left right leftAfter rightAfter : Link capacity World)
    (leftUnit rightUnit leftRest rightRest : List UInt8),
    left.Holds leftUnit leftRest → right.Holds rightUnit rightRest →
    responder.turn port left = .ok (some (.frame frame)) leftAfter →
    responder.turn port right = .ok (some (.frame frame)) rightAfter →
    leftUnit = rightUnit

private theorem Responder.form_of_turn {responder : Responder World}
    (packets : responder.protocol = .v2_1) {port : Port World}
    {link after : Link capacity World} {stuffed rest : List UInt8}
    (holds : link.Holds stuffed rest) {frame : Frame}
    (turned : responder.turn port link = .ok (some (.frame frame)) after) :
    stuffed = StuffedFrame.form frame := by
  rcases turn_of_holds packets port holds with ⟨staged, known, _⟩
  rw [known] at turned
  simp only [EStateM.Result.ok.injEq] at turned
  apply (StuffedFrame.verdict_eq_frame_iff holds.zeroFree frame).mp
  cases isVerdict : StuffedFrame.verdict stuffed <;>
    simp [isVerdict, Verdict.received?] at turned ⊢
  exact turned.1

/-- Under the stuffed protocol exactly the stuffed packets with a matching checksum are
accepted. -/
theorem Responder.accepts_exactly_stuffed_packets {responder : Responder World}
    (packets : responder.protocol = .v2_1) (port : Port World) :
    responder.AcceptsPackets port capacity where
  accepted link stuffed rest holds nonempty := by
    rcases turn_of_holds packets port holds with
      ⟨staged, turned, wellFormed, shrunk, left⟩
    rcases StuffedFrame.received?_verdict nonempty holds.zeroFree with
      ⟨received, handedOn, accepts⟩
    rw [handedOn] at turned
    exact ⟨received, staged, turned, wellFormed, shrunk, left,
      fun command subcommand payload => accepts _⟩
  framed frame link rest wellFormed staged := by
    have holds : link.Holds (StuffedFrame.form frame) rest :=
      ⟨wellFormed, Stuffing.zero_free_encode _, staged⟩
    rcases turn_of_holds packets port holds with ⟨after, turned, _, _, left⟩
    rw [(StuffedFrame.verdict_eq_frame_iff holds.zeroFree frame).mpr rfl] at turned
    exact ⟨after, turned, left⟩
  unique frame left right leftAfter rightAfter leftUnit rightUnit leftRest rightRest
    leftHolds rightHolds leftTurned
      rightTurned := by
    rw [form_of_turn packets leftHolds leftTurned,
      form_of_turn packets rightHolds rightTurned]

/-- A full ring whose contents wrap: a stuffed packet, its delimiter, and the first byte
of a next one. -/
def Link.wrapped : Link 8 Unit where
  staged :=
    { cells := #v[0x01, 0x41, 0x0B, 0x00, 0x02, 0x02, 0x31, 0x04], start := 5, size := 8 }
  world := ()

private theorem Link.wrapped_holds :
    Link.wrapped.Holds [0x02, 0x31, 0x04, 0x01, 0x41, 0x0B] [0x02] where
  wellFormed := ⟨by decide, by decide⟩
  zeroFree := by simp
  staged := by decide +kernel

theorem Responder.accepts_wrapped_packet :
    (Responder.ofProtocol .v2_1 : Responder Unit).protocol = .v2_1 ∧
      ∃ staged, (Responder.ofProtocol .v2_1).turn Port.silent Link.wrapped =
          .ok
            (some
              (.frame
                { command := 0x31, subcommand := 0x00, payload := ⟨[0x41], by decide⟩ }))
            { Link.wrapped with staged } ∧ staged.toList = [0x02] := by
  have packets : (Responder.ofProtocol .v2_1 : Responder Unit).protocol = .v2_1 := rfl
  refine ⟨packets, ?_⟩
  rcases (accepts_exactly_stuffed_packets packets Port.silent).accepted Link.wrapped _ _
    Link.wrapped_holds (by decide) with ⟨received, staged, turned, _, _, left, accepts⟩
  have isForm : [0x02, 0x31, 0x04, 0x01, 0x41, 0x0B] =
      Stuffing.encode ([0x31, 0x00, 0x01] ++ [0x41] ++
        [Checksum.ofBytes ([0x31, 0x00, 0x01] ++ [0x41])]) := by
    decide +kernel
  rw [(accepts 0x31 0x00 ⟨[0x41], by decide⟩).mpr isForm] at turned
  exact ⟨staged, turned, left⟩

end TriggerBench
