import TriggerBench.Proofs.Polls
import TriggerBench.Proofs.WireForms

/-! # Lines without gaps

A line that has bytes for each read as long as it holds any. Whatever portions it delivers
them in, a frame that comes next is received with exactly its bytes.
-/

namespace TriggerBench

open Simulation

variable {Memory : Type} {capacity : Nat}

namespace Simulation

namespace Line

structure Gapless (line : Line) : Prop where
  flows : line.Flows
  holdsBytes : ∀ delivery ∈ line.deliveries, delivery.data ≠ []

theorem Gapless.read {line : Line} (gapless : line.Gapless) (wanted : Nat) :
    (line.read wanted).2.Gapless := by
  have holdsBytes := gapless.holdsBytes
  cases deliveries : line.deliveries with
  | nil => simpa only [Line.read, deliveries] using gapless
  | cons delivery rest =>
      rw [deliveries, List.forall_mem_cons] at holdsBytes
      cases delivery with
      | failure => exact absurd rfl holdsBytes.1
      | bytes data =>
          simp only [Line.read, deliveries]
          refine ⟨gapless.flows, ?_⟩
          simp only
          split
          case isTrue => exact holdsBytes.2
          case isFalse left =>
              exact List.forall_mem_cons.mpr ⟨by simpa [Delivery.data]
                using left, holdsBytes.2⟩

theorem Gapless.congr {line other : Line} (gapless : line.Gapless)
    (sameDeliveries : other.deliveries = line.deliveries)
    (sameReadLimit : other.readLimit = line.readLimit) : other.Gapless where
  flows := by
    rw [Flows, sameReadLimit]
    exact gapless.flows
  holdsBytes := by
    rw [sameDeliveries]
    exact gapless.holdsBytes

/-- A read without any bytes finds no deliveries left. -/
theorem Gapless.deliveries_eq_nil {line : Line} (gapless : line.Gapless) {wanted : Nat}
    (positive : 0 < wanted)
    (nothing : ∀ bytes, (line.read wanted).1 = .delivered bytes → bytes = []) :
    line.deliveries = [] := by
  have holdsBytes := gapless.holdsBytes
  cases deliveries : line.deliveries with
  | nil => rfl
  | cons delivery rest =>
      rw [deliveries, List.forall_mem_cons] at holdsBytes
      cases delivery with
      | failure => exact absurd rfl holdsBytes.1
      | bytes data =>
          exact absurd (gapless.flows.data_eq_nil positive deliveries
            nothing) holdsBytes.1

private theorem Gapless.deliveries_of_pending {line : Line} (gapless : line.Gapless)
    (nothing : line.pending = []) :
    line.deliveries = [] := by
  cases deliveries : line.deliveries with
  | nil => rfl
  | cons delivery rest =>
      have member : delivery ∈ line.deliveries := deliveries ▸ List.mem_cons_self
      exact absurd (List.flatMap_eq_nil_iff.mp nothing delivery member)
        (gapless.holdsBytes delivery member)

end Line

namespace Bench

private theorem starves_of_nothing {wanted : Nat} {before after : Bench Memory}
    {reason : Interruption} (starves : port.Starves wanted before reason after)
    (nothing : before.line.deliveries = []) :
    reason = if before.line.endless then .stopped .endlessWait
      else .failed .endOfStream := by
  have read : port.read wanted before =
      if before.line.endless then .error .endlessWait before
      else .ok (some []) ({ before with line := before.line }.record
        (.read wanted (some 0))) := by
    simp only [port, readLine, Line.read, nothing]
    cases before.line.endless <;> rfl
  cases endless : before.line.endless with
  | true =>
      rw [endless, if_pos rfl] at read
      cases starves with
      | ended isRead => cases isRead.symm.trans read
      | failed isRead => cases isRead.symm.trans read
      | stopped isRead =>
          cases isRead.symm.trans read
          rfl
  | false =>
      rw [endless, if_neg Bool.false_ne_true] at read
      cases starves with
      | ended => rfl
      | failed isRead => cases isRead.symm.trans read
      | stopped isRead => cases isRead.symm.trans read

private theorem port_streams_gapless :
    (port : Port (Bench Memory)).Streams (fun bench => bench.line.pending)
    fun before after => ReadFrom before after ∧
      (before.line.Gapless → after.line.Gapless) :=
  @port_streams_along Memory (fun before after => before.Gapless → after.Gapless)
    (fun _ => id) (fun first second gapless => second (first gapless))
    fun _ wanted gapless => gapless.read wanted

end Bench

end Simulation

namespace Responder

variable {responder : Responder (Bench Memory)} {link : Link capacity (Bench Memory)}

/-- From a line without gaps, a frame that comes next is received, and exactly the bytes
behind it are left. -/
theorem receive_of_written (positive : 0 < capacity) (wellFormed : link.staged.WellFormed)
    (gapless : link.world.line.Gapless) {frame : Frame} {wire rest : List UInt8}
    (written : frame.Written responder.protocol wire) (expected : responder.Expects frame)
    (fits : wire.length ≤ capacity) (comes : link.toCome = wire ++ rest) :
    ∃ middle, responder.receive Bench.port link = .ok (.frame frame) middle ∧
      middle.staged.WellFormed ∧
      middle.toCome = rest ∧ Bench.ReadFrom link.world middle.world ∧
      middle.world.line.Gapless := by
  have starts : responder.trim link.toCome = wire ++ rest := by
    rw [comes, trim_written written]
  have isNext := next?_of_written written expected fits starts
  have gathered :
      Gathered responder Bench.port _ link (responder.receive Bench.port link) :=
    receive_gathered Bench.port_streams_gapless.gathers wellFormed
  generalize responder.receive Bench.port link = result at gathered
  cases gathered with
  | @received bytes received middle delivers next stillWellFormed =>
      rcases delivers with ⟨split, read, stillGapless⟩
      have nextInStream := next?_append positive next middle.world.line.pending
      rw [List.append_assoc, ← split] at nextInStream
      cases nextInStream.symm.trans isNext
      exact ⟨middle, rfl, stillWellFormed, rfl, read, stillGapless gapless⟩
  | @starved bytes reason after _ nothing left _ starves =>
      rcases starves with
        ⟨wanted, before, asksForBytes, ⟨splitBefore, _, stillGapless⟩, starves⟩
      -- The last read found no bytes, so that all of them are staged, and then something
      -- comes next.
      have noneLeft :=
        (stillGapless gapless).deliveries_eq_nil asksForBytes
          (Bench.port_starves starves).2
      have allStaged : link.toCome = link.staged.toList ++ bytes := by
        rw [Link.toCome, Link.stream, splitBefore, Line.pending, noneLeft,
          List.flatMap_nil, List.append_nil]
      rw [left, next?_trim, ← allStaged, isNext] at nothing
      cases nothing

theorem poll_of_written (positive : 0 < capacity) (wellFormed : link.staged.WellFormed)
    (gapless : link.world.line.Gapless) {frame : Frame} {wire rest : List UInt8}
    (written : frame.Written responder.protocol wire) (expected : responder.Expects frame)
    (fits : wire.length ≤ capacity) (comes : link.toCome = wire ++ rest) :
    ∃ middle, responder.poll link =
        Poll.ofResult Link.world
          (Link.worldComponent.lift (responder.answer Bench.port (.frame frame)) middle) ∧
      middle.staged.WellFormed ∧ middle.toCome = rest ∧
        Bench.ReadFrom link.world.cleared middle.world ∧
      middle.world.line.Gapless := by
  have startWellFormed : (link.mapWorld Bench.cleared).staged.WellFormed := wellFormed
  have startGapless : (link.mapWorld Bench.cleared).world.line.Gapless := gapless
  rcases receive_of_written positive startWellFormed startGapless written expected fits
    comes with ⟨middle, received, stillWellFormed, left, read, stillGapless⟩
  exact ⟨middle, poll_of_receive received, stillWellFormed, left, read, stillGapless⟩

/-- Where nothing is left on a line without gaps, a poll finds nothing, and it ends or
waits as the line does. -/
theorem poll_of_nothing (responder : Responder (Bench Memory)) (positive : 0 < capacity)
    (wellFormed : link.staged.WellFormed) (gapless : link.world.line.Gapless)
    (nothing : link.toCome = []) :
    (responder.poll link).1.result =
        .error (if link.world.line.endless then .stopped .endlessWait
          else .failed .endOfStream) ∧ (responder.poll link).2.toCome = [] := by
  have startWellFormed : (link.mapWorld Bench.cleared).staged.WellFormed := wellFormed
  have startStaged : (link.mapWorld Bench.cleared).staged.toList = [] :=
    (List.append_eq_nil_iff.mp nothing).1
  have nonePending := (List.append_eq_nil_iff.mp nothing).2
  have gathered : Gathered responder Bench.port _ (link.mapWorld Bench.cleared)
      (responder.receive Bench.port (link.mapWorld Bench.cleared)) :=
    receive_gathered Bench.port_streams_gapless.gathers startWellFormed
  generalize ran : responder.receive Bench.port (link.mapWorld Bench.cleared) =
    result at gathered
  cases gathered with
  | @received bytes received middle delivers next =>
      have noBytes : bytes = [] :=
        (List.append_eq_nil_iff.mp (delivers.1.symm.trans nonePending)).1
      rw [startStaged, noBytes, List.append_nil,
        next?_of_waiting responder.examine_nil positive] at next
      cases next
  | @starved bytes reason after delivers _ left _ starves =>
      rcases starves with ⟨wanted, before, _, ⟨splitBefore, read, stillGapless⟩, starves⟩
      rcases List.append_eq_nil_iff.mp (delivers.1.symm.trans nonePending) with
        ⟨noBytes, nothingPending⟩
      have nothingBefore :=
        (List.append_eq_nil_iff.mp (splitBefore.symm.trans nonePending)).2
      have noDeliveries := (stillGapless gapless).deliveries_of_pending nothingBefore
      rw [startStaged, noBytes, List.append_nil, trim_nil] at left
      rw [poll_of_receive_error ran]
      refine ⟨congrArg Except.error ?_, ?_⟩
      · rw [Bench.starves_of_nothing starves noDeliveries]
        rcases read with ⟨_, _, _, rfl⟩
        rfl
      · rw [Link.toCome, Link.stream, left, nothingPending, List.append_nil]

end Responder

end TriggerBench
