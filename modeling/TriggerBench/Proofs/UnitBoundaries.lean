import TriggerBench.Proofs.Resynchronisation
import TriggerBench.Proofs.RingOverflow

/-! # Boundaries of units

Polling a stuffed stream always goes on from the boundary of a unit: the start of the
stream, a position behind a zero, or one behind the bytes of an overflow. Conversely,
polling comes by every boundary, and answers what begins there.
-/

namespace TriggerBench

open Simulation

def StuffedFrame.Fills (capacity : Nat) (stream : List UInt8) (position : Nat) : Prop :=
  ∃ filling rest, stream.drop position = filling ++ rest ∧ filling.length = capacity ∧
    ∀ byte ∈ filling, byte ≠ 0

inductive StuffedFrame.Boundary (capacity : Nat) (stream : List UInt8) : Nat → Prop
  | start : Boundary capacity stream 0
  | delimited {position} (zero : stream[position]? = some 0) :
      Boundary capacity stream (position + 1)
  | overflowed {position} (boundary : Boundary capacity stream position)
      (fills : StuffedFrame.Fills capacity stream position) :
      Boundary capacity stream (position + capacity)

namespace Responder

open StuffedFrame (Fills Boundary)

variable {capacity : Nat}

/-! ## Boundaries in a stream -/

section Streams

variable {World : Type} {responder : Responder World} {stream other rest : List UInt8}
  {position : Nat}

private theorem exists_boundary (packets : responder.protocol.isText = false)
    (boundary : Boundary capacity stream position) :
    ∃ next, Boundary capacity stream next ∧
      responder.trim (stream.drop position) = stream.drop next := by
  generalize isRest : stream.drop position = rest
  induction rest generalizing position with
  | nil => exact ⟨position, boundary, trim_nil.trans isRest.symm⟩
  | cons byte more induction =>
      by_cases stray : byte = 0
      · have zero : stream[position]? = some 0 := by
          have atPosition : (stream.drop position)[0]? = stream[position + 0]? :=
            List.getElem?_drop
          rw [isRest, stray] at atPosition
          exact atPosition.symm
        have behind : stream.drop (position + 1) = more := by
          rw [← List.drop_drop, isRest]
          rfl
        rcases induction (.delimited zero) behind with ⟨next, nextBoundary, trimmed⟩
        refine ⟨next, nextBoundary, ?_⟩
        rw [stray, trim_zero_cons packets, trimmed]
      · exact ⟨position, boundary, (trim_cons_of_ne stray more).trans isRest.symm⟩

private theorem examine_eq_none_iff (packets : responder.protocol.isText = false)
    (staged : List UInt8) :
    responder.examine staged = none ↔ ∀ byte ∈ staged, byte ≠ 0 := by
  simp only [examine, packets, Bool.false_eq_true, if_false]
  constructor
  · intro nothing
    rcases StuffedFrame.zero_free_or_delimited staged with
      zeroFree | ⟨stuffed, rest, rfl, zeroFree⟩
    · exact zeroFree
    · rw [StuffedFrame.examine_delimited zeroFree] at nothing
      cases nothing
  · exact StuffedFrame.examine_of_zero_free

theorem fills_of_overflow (packets : responder.protocol.isText = false)
    (ahead : responder.trim other = stream.drop position)
    (next : responder.next? capacity other = some (.dropped .overflow, rest)) :
    Fills capacity stream position ∧ rest = stream.drop (position + capacity) := by
  rw [next?_overflow_iff, ahead, examine_eq_none_iff packets] at next
  rcases next with ⟨zeroFree, enough, isRest⟩
  refine ⟨⟨_, _, (List.take_append_drop capacity _).symm, ?_, zeroFree⟩, ?_⟩
  · rw [List.length_take, Nat.min_eq_left enough]
  · rw [isRest, List.drop_drop]

theorem next?_of_fills (packets : responder.protocol.isText = false)
    (positive : 0 < capacity) (fills : Fills capacity stream position) :
    responder.trim (stream.drop position) = stream.drop position ∧
      responder.next? capacity (stream.drop position) =
        some (.dropped .overflow, stream.drop (position + capacity)) := by
  rcases fills with ⟨filling, rest, isSplit, isLength, zeroFree⟩
  have trimmed : responder.trim (stream.drop position) = stream.drop position := by
    cases filling with
    | nil => simp [← isLength] at positive
    | cons byte more =>
        rw [isSplit, List.cons_append]
        exact trim_cons_of_ne (zeroFree byte List.mem_cons_self) _
  refine ⟨trimmed, ?_⟩
  rw [next?_overflow_iff, trimmed, examine_eq_none_iff packets, ← List.drop_drop, isSplit,
    ← isLength, List.take_left, List.length_append]
  exact ⟨zeroFree, Nat.le_add_right _ _, rfl⟩

/-- What comes next at a boundary ends at a boundary. -/
theorem boundary_behind (packets : responder.protocol.isText = false)
    (boundary : Boundary capacity stream position)
    (ahead : responder.trim other = stream.drop position) {received : Received}
    (next : responder.next? capacity other = some (received, rest)) :
    ∃ behind, Boundary capacity stream behind ∧
      responder.trim rest = stream.drop behind := by
  have behindNext : ∃ behind, Boundary capacity stream behind ∧
      rest = stream.drop behind := by
    cases found : responder.examine ((responder.trim other).take capacity) with
    | none =>
        have isOverflow : received = .dropped .overflow := by
          simp only [next?, found] at next
          split at next
          · cases next
            rfl
          · cases next
        rw [isOverflow] at next
        rcases fills_of_overflow packets ahead next with ⟨fills, isRest⟩
        exact ⟨_, .overflowed boundary fills, isRest⟩
    | some examined =>
        have isRest : rest = (responder.trim other).drop examined.released := by
          simp only [next?, found, Option.map_eq_some_iff] at next
          rcases next with ⟨_, _, equal⟩
          exact (Prod.mk.inj equal).2.symm
        rcases StuffedFrame.zero_free_or_delimited
          ((responder.trim other).take capacity) with zeroFree | ⟨stuffed, more,
            isWindow, zeroFree⟩
        · rw [(examine_eq_none_iff packets _).mpr zeroFree] at found
          cases found
        · have released : examined.released = stuffed.length + 1 := by
            simp only [examine, packets, Bool.false_eq_true, if_false, isWindow] at found
            rw [StuffedFrame.examine_delimited zeroFree, Option.some.injEq] at found
            rw [← found]
          have zero : stream[position + stuffed.length]? = some 0 := by
            have inWindow :
                ((responder.trim other).take capacity)[stuffed.length]? = some 0 := by
              rw [isWindow]
              simp
            rw [List.getElem?_take] at inWindow
            split at inWindow
            · rwa [ahead, List.getElem?_drop] at inWindow
            · cases inWindow
          refine ⟨_, .delimited zero, ?_⟩
          rw [isRest, ahead, released, List.drop_drop, Nat.add_assoc]
  rcases behindNext with ⟨behind, behindBoundary, isRest⟩
  rw [isRest]
  exact exists_boundary packets behindBoundary

end Streams

/-! ## Sequences of polls -/

section Polling

variable {Memory : Type} {responder : Responder (Bench Memory)}
  {link : Link capacity (Bench Memory)}

theorem polls_add (first behind : Nat) (link : Link capacity (Bench Memory)) :
    (responder.polls (first + behind) link).2 =
      (responder.polls behind (responder.polls first link).2).2 := by
  induction first generalizing link with
  | zero => rw [Nat.zero_add, polls]
  | succ first induction =>
      rw [Nat.succ_add, polls_succ, polls_succ]
      exact induction _

theorem polls_keep (attends : responder.Attends) (wellFormed : link.staged.WellFormed)
    (times : Nat) :
    Keeps link (responder.polls times link).2 := by
  induction times generalizing link with
  | zero => exact ⟨wellFormed, id, Nat.le_refl _⟩
  | succ times induction =>
      have first := poll_keeps attends wellFormed
      have behind := induction first.wellFormed
      exact
        { wellFormed := behind.wellFormed
          flows := fun flows => behind.flows (first.flows flows)
          supplied := Nat.le_trans behind.supplied first.supplied }

structure Answers (responder : Responder (Bench Memory)) (received : Received)
    (rest : List UInt8) (link : Link capacity (Bench Memory)) : Prop where
  answered : ∃ middle, Bench.ReadFrom link.world.cleared middle ∧
    (responder.poll link).1 =
      (Poll.ofResult id (responder.answer Bench.port received middle)).1 ∧
    (responder.poll link).2.world =
      (Poll.ofResult id (responder.answer Bench.port received middle)).2
  left : responder.trim (responder.poll link).2.toCome = responder.trim rest

variable (attends : responder.Attends)
include attends

/-- What comes next is answered after as many polls as end with a read. -/
theorem polls_answer (wellFormed : link.staged.WellFormed) (flows : link.world.line.Flows)
    {received : Received} {rest : List UInt8}
    (next : responder.next? capacity link.toCome = some (received, rest)) :
    ∃ times, responder.trim (responder.polls times link).2.toCome = responder.trim
        link.toCome ∧ responder.Answers received rest (responder.polls times link).2 := by
  generalize measured : link.world.line.supply = budget
  induction budget using Nat.strongRecOn generalizing link with
  | ind budget induction =>
      have kept := poll_keeps attends wellFormed
      have advanced := poll_advanced attends wellFormed flows next
      generalize ran : responder.poll link = polled at advanced kept
      cases advanced with
      | answered read world left =>
          refine ⟨0, rfl, ⟨?_, ?_⟩⟩
          · exact ⟨_, read, congrArg Prod.fst ran,
              (congrArg (fun polled => polled.2.world) ran).trans world⟩
          · change responder.trim (responder.poll link).2.toCome = _
            rw [ran]
            exact left
      | starved left ebbed =>
          have nextBehind := (next?_congr left).trans next
          rw [measured] at ebbed
          rcases induction _ ebbed kept.wellFormed (kept.flows flows) nextBehind rfl with
            ⟨times, sameAhead, answers⟩
          refine ⟨times + 1, ?_, ?_⟩
          · rw [polls_succ, ran]
            exact sameAhead.trans left
          · rw [polls_succ, ran]
            exact answers

/-- Polling comes to where what follows a delimiter comes next. -/
theorem polls_reach {delimiter : UInt8} (delimits : responder.Delimits delimiter)
    (positive : 0 < capacity) (wellFormed : link.staged.WellFormed)
    (flows : link.world.line.Flows) {tail : List UInt8}
    (approaches : responder.Approaches delimiter tail link.toCome) :
    ∃ times, responder.trim (responder.polls times link).2.toCome =
      responder.trim tail := by
  generalize measured : responder.remaining link = budget
  induction budget using Nat.strongRecOn generalizing link with
  | ind budget induction =>
      rcases approaches with arrived | ⟨garbage, ahead⟩
      · exact ⟨0, arrived⟩
      · have kept := poll_keeps attends wellFormed
        rcases poll_nears attends delimits positive wellFormed flows ahead with
          ⟨stillAhead, lower⟩
        rw [measured] at lower
        rcases induction _ lower kept.wellFormed (kept.flows flows) stillAhead rfl with
          ⟨times, arrived⟩
        exact ⟨times + 1, arrived⟩

variable (packets : responder.protocol.isText = false)
include packets

private theorem poll_from_boundary (wellFormed : link.staged.WellFormed)
    {stream : List UInt8} {position : Nat} (boundary : Boundary capacity stream position)
    (ahead : responder.trim link.toCome = stream.drop position) :
    ∃ behind, Boundary capacity stream behind ∧
      responder.trim (responder.poll link).2.toCome = stream.drop behind := by
  have served := poll_served responder wellFormed
  generalize responder.poll link = polled at served ⊢
  cases served with
  | @answered received rest middle _ next left _ _ _ =>
      rw [toCome_answered attends received middle, left]
      exact boundary_behind packets boundary ahead next
  | starved _ _ left _ _ _ _ => exact ⟨position, boundary, left.trans ahead⟩

/-- Every poll goes on from a boundary. -/
theorem polls_from_boundary (wellFormed : link.staged.WellFormed) (times : Nat) :
    ∃ position, Boundary capacity link.toCome position ∧
      responder.trim (responder.polls times link).2.toCome =
        link.toCome.drop position := by
  have fromBoundary :
      ∀ {stream : List UInt8} {position : Nat} {middle : Link capacity (Bench Memory)},
      middle.staged.WellFormed → Boundary capacity stream position →
      responder.trim middle.toCome = stream.drop position →
      ∃ behind, Boundary capacity stream behind ∧
        responder.trim (responder.polls times middle).2.toCome = stream.drop behind := by
    induction times with
    | zero => exact fun _ boundary ahead => ⟨_, boundary, ahead⟩
    | succ times induction =>
        intro stream position middle middleWellFormed boundary ahead
        rcases poll_from_boundary attends packets middleWellFormed boundary ahead with
          ⟨_, nextBoundary, nextAhead⟩
        exact induction (poll_keeps attends middleWellFormed).wellFormed
          nextBoundary nextAhead
  rcases exists_boundary packets (@Boundary.start capacity link.toCome) with
    ⟨first, firstBoundary, ahead⟩
  exact fromBoundary wellFormed firstBoundary ahead

/-- Polling comes by every boundary. -/
theorem polls_reach_boundary (positive : 0 < capacity)
    (wellFormed : link.staged.WellFormed) (flows : link.world.line.Flows) {position : Nat}
    (boundary : Boundary capacity link.toCome position) :
    ∃ times, responder.trim (responder.polls times link).2.toCome =
      responder.trim (link.toCome.drop position) := by
  induction boundary with
  | start => exact ⟨0, rfl⟩
  | @delimited position zero =>
      have delimits : responder.Delimits 0 := by simp [Delimits, packets]
      have isSplit : link.toCome = link.toCome.take position ++ 0 :: link.toCome.drop
          (position + 1) := by
        rcases List.getElem?_eq_some_iff.mp zero with ⟨inside, isZero⟩
        rw [← isZero, List.getElem_cons_drop, List.take_append_drop]
      have approaches : responder.Approaches 0 (link.toCome.drop (position + 1))
          link.toCome := by
        have split :=
          approaches_of_delimited delimits (link.toCome.take position)
            (link.toCome.drop (position + 1))
        rwa [← isSplit] at split
      exact polls_reach attends delimits positive wellFormed flows approaches
  | @overflowed position boundary fills induction =>
      rcases induction with ⟨times, reached⟩
      have kept := polls_keep attends wellFormed times
      have next := (next?_congr reached).trans (next?_of_fills packets positive fills).2
      rcases polls_answer attends kept.wellFormed (kept.flows flows) next with
        ⟨more, _, answers⟩
      refine ⟨times + (more + 1), ?_⟩
      rw [polls_add, polls_add]
      exact answers.left

end Polling

end Responder

end TriggerBench
