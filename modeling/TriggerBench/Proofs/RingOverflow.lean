import TriggerBench.Proofs.BrokenPackets
import TriggerBench.Proofs.CheckedServing
import TriggerBench.Proofs.TextGrammar

/-! # When the ring overflows

An overflow is only reported for a full ring that holds no unit. A line is complete, or
broken, by the time that its longest form is staged, so that a ring with room for that
never overflows.
-/

namespace TriggerBench

variable {capacity : Nat} {World : Type}

private theorem TextFrame.verdict_ne_overflow (command : UInt8) (body : Body)
    (last : UInt8) :
    verdict command (body.close last) ≠ .rejected .overflow := by
  rcases Body.close_cases body last with isMissing | isInvalid | ⟨payload, isPayload⟩
  · simp [isMissing, verdict]
  · simp [isInvalid, verdict]
  · simp [isPayload, verdict]

private theorem TextFrame.examine_ne_overflow {expectedLength : UInt8 → Option Nat}
    {staged : List UInt8} {examined : Examined}
    (found : examine expectedLength staged = some examined) :
    examined.verdict ≠ .rejected .overflow := by
  cases staged with
  | nil => cases found
  | cons command rest =>
      cases expected : expectedLength command with
      | none =>
          simp only [examine, expected, Option.some.injEq] at found
          simp [← found]
      | some length =>
          rcases unterminated_cases (2 * length) rest with
            ⟨before, terminator, behind, rfl, free, ends, inside⟩ | ⟨before, last, behind,
              rfl, free, all⟩ | ⟨free, short⟩
          · rw [examine_early expected free ends inside, Option.some.injEq] at found
            simp [← found]
          · rw [examine_complete expected free all, Option.some.injEq] at found
            rw [← found]
            exact verdict_ne_overflow command _ last
          · rw [examine_incomplete expected free short] at found
            cases found

/-- No line of a command with so many payload bytes at most is still incomplete once that
many bytes are staged. -/
theorem TextFrame.examine_of_long {expectedLength : UInt8 → Option Nat} {longest : Nat}
    (bounded : ∀ command length, expectedLength command = some length → length ≤ longest)
    {staged : List UInt8} (long : 2 * longest + 2 ≤ staged.length) :
    examine expectedLength staged ≠ none := by
  cases staged with
  | nil => simp at long
  | cons command rest =>
      cases expected : expectedLength command with
      | none => simp [examine, expected]
      | some length =>
          have lengthLe := bounded command length expected
          rcases unterminated_cases (2 * length) rest with
            ⟨before, terminator, behind, rfl, free, ends, inside⟩ | ⟨before, last, behind,
              rfl, free, all⟩ | ⟨free, short⟩
          · simp [examine_early expected free ends inside]
          · simp [examine_complete expected free all]
          · rw [List.length_cons] at long
            omega

private theorem StuffedFrame.verdict_ne_overflow {stuffed : List UInt8}
    (zeroFree : ∀ byte ∈ stuffed, byte ≠ 0) :
    verdict stuffed ≠ .rejected .overflow := by
  cases stuffed with
  | nil => simp [verdict]
  | cons byte rest =>
      rcases flaw_or_form (List.cons_ne_nil byte rest) zeroFree with
        ⟨reason, code, flaw⟩ | ⟨frame, isForm⟩
      · rw [flaw.verdict_eq zeroFree]
        cases flaw <;> simp
      · rw [(verdict_eq_frame_iff zeroFree frame).mpr isForm]
        simp

namespace Responder

variable {responder : Responder World} {port : Port World} {link : Link capacity World}

private theorem examine_ne_overflow {staged : List UInt8} {examined : Examined}
    (found : responder.examine staged = some examined) :
    examined.verdict ≠ .rejected .overflow := by
  cases text : responder.protocol.isText with
  | true =>
      rw [examine_eq_of_isText text] at found
      exact TextFrame.examine_ne_overflow found
  | false =>
      simp only [examine, text, Bool.false_eq_true, if_false] at found
      rcases StuffedFrame.zero_free_or_delimited staged with
        zeroFree | ⟨stuffed, rest, rfl, zeroFree⟩
      · rw [StuffedFrame.examine_of_zero_free zeroFree] at found
        cases found
      · rw [StuffedFrame.examine_delimited zeroFree, Option.some.injEq] at found
        rw [← found]
        exact StuffedFrame.verdict_ne_overflow zeroFree

private theorem received?_ne_overflow {staged : List UInt8} {examined : Examined}
    (found : responder.examine staged = some examined) :
    examined.verdict.received? ≠ some (.dropped .overflow) := by
  intro handedOn
  apply examine_ne_overflow found
  cases verdict : examined.verdict with
  | skipped =>
      rw [verdict] at handedOn
      cases handedOn
  | rejected reason =>
      rw [verdict] at handedOn
      cases handedOn
      rfl
  | frame frame =>
      rw [verdict] at handedOn
      cases handedOn

/-- What comes next is an overflow exactly if there are enough bytes to fill the ring, and
no unit among them. -/
theorem next?_overflow_iff {stream rest : List UInt8} :
    responder.next? capacity stream = some (.dropped .overflow, rest) ↔
      responder.examine ((responder.trim stream).take capacity) = none ∧
      capacity ≤ (responder.trim stream).length ∧
        rest = (responder.trim stream).drop capacity := by
  simp only [next?]
  cases found : responder.examine ((responder.trim stream).take capacity) with
  | some examined =>
      have notOverflow := received?_ne_overflow found
      constructor
      · intro next
        rcases Option.map_eq_some_iff.mp next with ⟨received, handedOn, equal⟩
        rw [(Prod.mk.inj equal).1] at handedOn
        exact absurd handedOn notOverflow
      · rintro ⟨isNone, _⟩
        cases isNone
  | none =>
      simp only [true_and]
      split
      case isTrue enough => simp [enough, eq_comm]
      case isFalse short => simp [short]

/-- Only an overflow of the ring is reported as one. -/
theorem settle_overflow {received : Received} {world after : World}
    {packets : List Packet}
    (settled :
      responder.settle received world = .ok (packets, .rejected .overflow) after) :
    received = .dropped .overflow := by
  cases received with
  | dropped reason =>
      cases settled
      rfl
  | frame frame =>
      cases found : responder.table.find? frame.command with
      | none =>
          simp only [settle, found] at settled
          by_cases isVersion :
            (responder.answersVersion && frame.command == versionCommand) = true
          · rw [if_pos isVersion] at settled
            cases settled
          · rw [if_neg isVersion] at settled
            cases settled
      | some entry =>
          by_cases fits : entry.length = frame.payload.length
          · rw [settle_of_found found fits] at settled
            rcases ok_of_bind settled with ⟨answer, middle, _, handing⟩
            cases handing
          · simp only [settle, found, bne_iff_ne.mpr fits, if_true] at settled
            cases settled

theorem answer_overflow {received : Received} {world after : World}
    (answered : responder.answer port received world = .ok (.rejected .overflow) after) :
    received = .dropped .overflow := by
  rw [answer_eq] at answered
  rcases ok_of_bind answered with ⟨⟨packets, outcome⟩, middle, settled, sending⟩
  rcases ok_of_bind sending with ⟨_, last, _, handing⟩
  cases handing
  exact settle_overflow settled

/-! ## The full ring behind an overflow -/

private theorem turn_overflow (honest : port.Honest) (wellFormed : link.staged.WellFormed)
    {after : Link capacity World}
    (ran : responder.turn port link = .ok (some (.dropped .overflow)) after) :
    responder.examine link.staged.toList = none ∧ link.staged.size = capacity := by
  have turned : Turned responder port link _ := turned honest wellFormed
  generalize isResult : responder.turn port link = result at turned
  rw [isResult] at ran
  cases turned with
  | unit found _ _ _ =>
      have handedOn := (EStateM.Result.ok.inj ran).1
      exact absurd handedOn (received?_ne_overflow found)
  | overflow nothing full => exact ⟨nothing, full⟩
  | refilled _ _ _ _ _ => cases ran
  | starved _ _ _ => cases ran

private theorem receiveWithin_overflow (honest : port.Honest)
    (wellFormed : link.staged.WellFormed) {turns : Nat} {after : Link capacity World}
    (ran : responder.receiveWithin port turns link = .ok (.dropped .overflow) after) :
    ∃ staged : StagingBuffer capacity, staged.WellFormed ∧
      responder.examine staged.toList = none ∧ staged.size = capacity := by
  have ended : Ended responder port _ _ :=
    receiveWithin_ended_wellFormed honest turns wellFormed
  rw [ran] at ended
  cases ended with
  | @received last _ _ stillWellFormed turned =>
      exact ⟨last.staged, stillWellFormed, turn_overflow honest stillWellFormed turned⟩

/-- A ring that holds the longest line with its command and its terminator never
overflows. -/
theorem serveOneWithin_ne_overflow (text : responder.protocol.isText = true)
    (honest : port.Honest) (wellFormed : link.staged.WellFormed) {longest : Nat}
    (bounded : ∀ command length, responder.expectedLength command = some length →
      length ≤ longest)
    (enough : 2 * longest + 2 ≤ capacity) (turns : Nat) (after : Link capacity World) :
    responder.serveOneWithin port turns link ≠ .ok (.rejected .overflow) after := by
  intro ran
  rcases ok_of_bind ran with ⟨received, middle, receiving, answering⟩
  rcases ok_of_lift answering with ⟨world, answered, _⟩
  cases answer_overflow answered
  rcases receiveWithin_overflow honest wellFormed receiving with
    ⟨staged, stagedWellFormed, nothing, full⟩
  rw [examine_eq_of_isText text] at nothing
  apply TextFrame.examine_of_long bounded ?_ nothing
  rw [stagedWellFormed.length_toList, full]
  exact enough

end Responder

end TriggerBench
