import TriggerBench.Proofs.StuffedFraming
import TriggerBench.Proofs.TextGrammar

/-! # Wire forms of frames

What comes next in a stream is a frame exactly if a wire form of the frame comes next. A
text frame has a form for each case of its digits and each terminator, a stuffed frame has
one form only.
-/

namespace TriggerBench

inductive Frame.Written (frame : Frame) (protocol : Protocol) : List UInt8 → Prop
  | line {spelling terminator} (text : protocol.isText = true)
      (noSubcommand : frame.subcommand = 0)
      (spelled : spelling.map Hex.capital = Hex.spell frame.payload.bytes)
      (ends : terminator = '\n'.toUInt8 ∨ terminator = '\r'.toUInt8) :
      Written frame protocol (frame.command :: (spelling ++ [terminator]))
  | packet (packets : protocol.isText = false) :
      Written frame protocol (StuffedFrame.form frame ++ [0])

variable {World : Type} {responder : Responder World} {capacity : Nat} {frame : Frame}
  {wire rest : List UInt8}

/-- Whether lines with the command of a frame are taken to carry as many bytes as the
frame does. Packets say for themselves how many they carry. -/
def Responder.Expects (responder : Responder World) (frame : Frame) : Prop :=
  responder.protocol.isText = true →
    responder.expectedLength frame.command = some frame.payload.length

theorem Responder.expects_of_found {entry : CommandEntry World}
    (found : responder.table.find? frame.command = some entry)
    (fits : entry.length = frame.payload.length) :
    responder.Expects frame := by
  intro _
  simp only [expectedLength, found, fits]

theorem Frame.Written.length_le {protocol : Protocol}
    (written : frame.Written protocol wire) :
    wire.length ≤ frameCapacity := by
  have payloadFits : frame.payload.bytes.length ≤ maxPayload := frame.payload.length_le
  cases written with
  | @line spelling terminator _ _ spelled _ =>
      have spellingLength : spelling.length = 2 * frame.payload.bytes.length := by
        rw [← List.length_map Hex.capital, spelled, Hex.length_spell]
      simp only [frameCapacity, List.length_cons, List.length_append, List.length_nil]
      omega
  | packet =>
      rw [List.length_append, StuffedFrame.length_form]
      simp only [Payload.length, maxPayload, frameCapacity, List.length_singleton]
        at payloadFits ⊢
      omega

theorem Frame.Written.ne_nil
    (written : frame.Written responder.protocol wire) : wire ≠ [] := by
  cases written <;> simp

namespace Responder

private theorem examine_of_written (written : frame.Written responder.protocol wire)
    (expected : responder.Expects frame) (rest : List UInt8) :
    responder.examine (wire ++ rest) =
      some { verdict := .frame frame, released := wire.length } := by
  cases written with
  | @line spelling terminator text noSubcommand spelled ends =>
      have isFrame : frame =
          { command := frame.command, subcommand := 0, payload := frame.payload } := by
        rw [← noSubcommand]
      have spellingLength : spelling.length = 2 * frame.payload.length := by
        rw [← List.length_map Hex.capital, spelled, Hex.length_spell]
        rfl
      have examined :
          TextFrame.examine responder.expectedLength
            (frame.command :: (spelling ++ terminator :: rest)) = _ :=
        TextFrame.examine_spelled (expected text) spelled
          ((TextFrame.isTerminator_iff terminator).mpr ends)
      rw [examine_eq_of_isText text, List.cons_append, List.append_assoc,
        List.singleton_append, examined, ← isFrame]
      simp only [List.length_cons, List.length_append, List.length_nil, spellingLength]
  | packet packets =>
      have zeroFree : ∀ byte ∈ StuffedFrame.form frame, byte ≠ 0 :=
        Stuffing.zero_free_encode _
      rw [examine, packets, List.append_assoc, List.singleton_append]
      simp only [Bool.false_eq_true, if_false]
      rw [StuffedFrame.examine_delimited zeroFree,
        (StuffedFrame.verdict_eq_frame_iff zeroFree frame).mpr rfl,
        List.length_append, List.length_singleton]

private theorem written_of_line {command : UInt8} {length : Nat}
    (text : responder.protocol.isText = true)
    (expected : responder.expectedLength command = some length)
    (room : length ≤ maxPayload) {bytes : List UInt8} {examined : Examined}
    (found : TextFrame.examine responder.expectedLength
      (command :: bytes) = some examined)
    (isFrame : examined.verdict = .frame frame) :
    ∃ wire rest, command :: bytes = wire ++ rest ∧ wire.length = examined.released ∧
      frame.Written responder.protocol wire ∧ responder.Expects frame := by
  rcases TextFrame.unterminated_cases (2 * length) bytes with
    ⟨before, terminator, behind, rfl, free, ends, inside⟩ | ⟨before, last, behind, rfl,
      free, all⟩ | ⟨free, short⟩
  · rw [TextFrame.examine_early expected free ends inside, Option.some.injEq] at found
    rw [← found] at isFrame
    cases isFrame
  · rw [TextFrame.examine_complete expected free all, Option.some.injEq] at found
    subst found
    cases closed : (TextFrame.Body.empty.addAll before).close last with
    | error reason =>
        rw [closed] at isFrame
        cases isFrame
    | ok payload =>
        rw [closed] at isFrame
        cases isFrame
        rcases (TextFrame.Body.close_eq_ok_iff _ _ _).mp closed with ⟨ends, spells⟩
        have spelled := (TextFrame.Body.addAll_spells_iff all room payload).mp spells
        have lengthOf := TextFrame.length_of_spelled all spelled
        refine ⟨command :: (before ++ [last]), behind, by simp, by simp [all], ?_, ?_⟩
        · exact .line text rfl spelled ((TextFrame.isTerminator_iff last).mp ends)
        · exact fun _ => expected.trans (congrArg some lengthOf.symm)
  · rw [TextFrame.examine_incomplete expected free short] at found
    cases found

private theorem written_of_stuffed (packets : responder.protocol.isText = false)
    {bytes : List UInt8} {examined : Examined}
    (found : StuffedFrame.examine bytes = some examined)
    (isFrame : examined.verdict = .frame frame) :
    ∃ wire rest, bytes = wire ++ rest ∧ wire.length = examined.released ∧
      frame.Written responder.protocol wire ∧ responder.Expects frame := by
  rcases StuffedFrame.zero_free_or_delimited bytes with
    zeroFree | ⟨stuffed, rest, rfl, zeroFree⟩
  · rw [StuffedFrame.examine_of_zero_free zeroFree] at found
    cases found
  · rw [StuffedFrame.examine_delimited zeroFree, Option.some.injEq] at found
    subst found
    have isForm := (StuffedFrame.verdict_eq_frame_iff zeroFree frame).mp isFrame
    refine ⟨stuffed ++ [0], rest, by simp, by simp, ?_, ?_⟩
    · rw [isForm]
      exact .packet packets
    · intro isText
      rw [packets] at isText
      cases isText

private theorem written_of_examine (built : responder.table.Built) {bytes : List UInt8}
    {examined : Examined} (found : responder.examine bytes = some examined)
    (isFrame : examined.verdict = .frame frame) :
    ∃ wire rest, bytes = wire ++ rest ∧ wire.length = examined.released ∧
      frame.Written responder.protocol wire ∧ responder.Expects frame := by
  cases text : responder.protocol.isText with
  | true =>
      rw [examine_eq_of_isText text] at found
      cases bytes with
      | nil => simp [TextFrame.examine] at found
      | cons command bytes =>
          cases expected : responder.expectedLength command with
          | none =>
              simp only [TextFrame.examine, expected, Option.some.injEq] at found
              rw [← found] at isFrame
              cases isFrame
          | some length =>
              exact written_of_line text expected
                (expectedLength_le built expected) found isFrame
  | false =>
      simp only [examine, text, Bool.false_eq_true, if_false] at found
      exact written_of_stuffed text found isFrame

theorem trim_written (written : frame.Written responder.protocol wire)
    (rest : List UInt8) :
    responder.trim (wire ++ rest) = wire ++ rest := by
  cases written with
  | line text => exact trim_of_isText text _
  | packet =>
      cases isForm : StuffedFrame.form frame with
      | nil => exact absurd isForm (Stuffing.encode_ne_nil _)
      | cons byte more =>
          have nonzero : byte ≠ 0 := by
            apply Stuffing.zero_free_encode (CommandPacket.write frame)
            change byte ∈ StuffedFrame.form frame
            rw [isForm]
            exact List.mem_cons_self
          exact trim_cons_of_ne nonzero _

/-- What comes next in a stream that starts with a wire form of a frame. -/
theorem next?_of_written (written : frame.Written responder.protocol wire)
    (expected : responder.Expects frame) (fits : wire.length ≤ capacity)
    {stream : List UInt8} (starts : responder.trim stream = wire ++ rest) :
    responder.next? capacity stream = some (.frame frame, rest) := by
  have window : (wire ++ rest).take capacity =
      wire ++ rest.take (capacity - wire.length) := by
    rw [List.take_append, List.take_of_length_le fits]
  simp [next?, starts, window, examine_of_written written expected, Verdict.received?]

theorem written_of_next? (built : responder.table.Built) {stream : List UInt8}
    (next : responder.next? capacity stream = some (.frame frame, rest)) :
    ∃ wire, responder.trim stream = wire ++ rest ∧ wire.length ≤ capacity ∧
      frame.Written responder.protocol wire ∧ responder.Expects frame := by
  simp only [next?] at next
  split at next
  case h_1 examined found =>
      rcases Option.map_eq_some_iff.mp next with ⟨received, handedOn, equal⟩
      simp only [Prod.mk.injEq] at equal
      rcases equal with ⟨rfl, isRest⟩
      rcases written_of_examine built found (Verdict.eq_frame_of_received handedOn) with
        ⟨wire, behind, window, released, written, expected⟩
      have inWindow : wire.length ≤ ((responder.trim stream).take capacity).length := by
        rw [window, List.length_append]
        omega
      rw [List.length_take] at inWindow
      refine ⟨wire, ?_, by omega, written, expected⟩
      have isWire : (responder.trim stream).take wire.length = wire := by
        have taken := congrArg (List.take wire.length) window
        rwa [List.take_take, Nat.min_eq_left (by omega), List.take_left] at taken
      have joined := (List.take_append_drop wire.length (responder.trim stream)).symm
      rwa [isWire, released, isRest] at joined
  case h_2 =>
      split at next
      · cases next
      · cases next

end Responder

end TriggerBench
