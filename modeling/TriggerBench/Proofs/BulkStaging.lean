import Mathlib.Data.List.Induction
import TriggerBench.Proofs.BoundedQueue

/-! # Two ways into the ring

Bytes enter a ring one by one, or as blocks that are copied to the room behind the staged
bytes. A block never crosses the end of the ring, so that all the free cells may take two
blocks. Whichever way the bytes take, the same ring comes out of it.
-/

namespace TriggerBench.StagingBuffer

variable {capacity : Nat}

/-- A ring as its operations leave it. Any number of cells may be claimed, also cells that
nothing was written to, and a mark may come from any cursor. -/
inductive Reachable : StagingBuffer capacity → Prop
  | empty : Reachable empty
  | staged {buffer} (bytes : List UInt8) (before : Reachable buffer) :
      Reachable (buffer.stage bytes).1
  | written {buffer region} (bytes : List UInt8) (room : buffer.room? = some region)
      (before : Reachable buffer) :
      Reachable (buffer.fill region bytes)
  | claimed {buffer} (count : Nat) (before : Reachable buffer) :
      Reachable (buffer.claim count)
  | released {buffer after} (mark : Mark) (isReleased : buffer.release? mark = some after)
      (before : Reachable buffer) : Reachable after
  | discarded {buffer} (before : Reachable buffer) : Reachable buffer.discard

/-- Copies as much of the bytes as the room takes, and goes on with the rest until there
is none or the ring is full: how many copies that takes, the ring after them, and the
bytes that are left over. -/
inductive CopiesIn :
    StagingBuffer capacity → List UInt8 → Nat → StagingBuffer capacity → List UInt8 → Prop
  | exhausted {buffer} : CopiesIn buffer [] 0 buffer []
  | full {buffer bytes} (isFull : buffer.isFull = true) :
      CopiesIn buffer bytes 0 buffer bytes
  | copy {buffer middle after bytes left count copies} (notFull : buffer.isFull = false)
      (nonempty : bytes ≠ []) (received : buffer.receive? bytes = some (middle, count))
      (behind : CopiesIn middle (bytes.drop count) copies after left) :
      CopiesIn buffer bytes (copies + 1) after left

variable {buffer middle after : StagingBuffer capacity}
  {bytes left : List UInt8} {copies : Nat}

/-! ## Reachable rings -/

theorem Reachable.wellFormed (positive : 0 < capacity) (reachable : buffer.Reachable) :
    buffer.WellFormed := by
  induction reachable with
  | empty => exact wellFormed_empty
  | staged bytes _ induction => exact (induction.stage bytes).1
  | written _ _ _ induction => exact ⟨induction.start_lt, induction.size_le⟩
  | claimed count _ induction => exact ⟨induction.start_lt, Nat.min_le_right _ _⟩
  | released mark isReleased _ induction =>
      rcases induction.release? positive mark with ⟨known, isKnown, wellFormed, _⟩
      cases isReleased.symm.trans isKnown
      exact wellFormed
  | discarded => exact wellFormed_discard _

private theorem overwrite_append (cells : Vector UInt8 capacity) (position : Nat)
    (first second : List UInt8) :
    overwrite cells position (first ++ second) =
      overwrite (overwrite cells position first) (position + first.length) second := by
  induction first generalizing cells position with
  | nil => rfl
  | cons byte rest induction =>
      have distance : position + (rest.length + 1) =
        position + 1 + rest.length := by omega
      rw [List.cons_append, overwrite, overwrite, induction, List.length_cons, distance]

private theorem overwrite_toList (cells contents : Vector UInt8 capacity) :
    overwrite cells 0 contents.toList = contents := by
  ext index inRing
  rw [getElem_overwrite]
  simp [inRing]

/-- Where a ring has cells, all of its well-formed states are reachable. -/
theorem reachable_iff_wellFormed (positive : 0 < capacity) :
    buffer.Reachable ↔ buffer.WellFormed := by
  refine ⟨Reachable.wellFormed positive, ?_⟩
  intro wellFormed
  have startLt := wellFormed.start_lt positive
  have sizeLe := wellFormed.size_le
  have room : (empty : StagingBuffer capacity).room? = some ⟨0, capacity⟩ := by
    have notFull : (empty : StagingBuffer capacity).isFull = false := by
      simp only [isFull, empty, beq_eq_false_iff_ne]
      omega
    rw [room?, end?, cell?_of_pos positive, notFull]
    simp [empty]
  -- The cells are written while all of them are free, and claiming and releasing some
  -- moves the start.
  let filled := (empty : StagingBuffer capacity).fill ⟨0, capacity⟩ buffer.cells.toList
  let moved : StagingBuffer capacity := { filled with start := buffer.start }
  have reached : filled.Reachable := .written _ room .empty
  have isMoved : (filled.claim buffer.start).release? ⟨buffer.start⟩ = some moved := by
    have inRing : min buffer.start capacity = buffer.start := by omega
    simp [release?, claim, filled, moved, fill, empty, cell?_of_pos positive, inRing,
      Nat.mod_eq_of_lt startLt]
  have isClaimed : moved.claim buffer.size = buffer := by
    have inRing : min buffer.size capacity = buffer.size := by omega
    have allTaken : buffer.cells.toList.take capacity = buffer.cells.toList :=
      List.take_of_length_le (by simp)
    simp only [claim, moved, filled, fill, empty, Region.length, Nat.sub_zero, allTaken,
      overwrite_toList, Nat.zero_add, inRing]
  rw [← isClaimed]
  exact .claimed _ (.released _ isMoved (.claimed _ reached))

/-! ## One copy -/

/-- The room is all the free cells once the staged bytes reach the end of the ring, and
goes up to that end before. -/
theorem WellFormed.length_room? (wellFormed : buffer.WellFormed)
    (notFull : buffer.isFull = false) {region : Region}
    (room : buffer.room? = some region) :
    region.length =
      if buffer.start + buffer.size < capacity then
        capacity - (buffer.start + buffer.size)
      else capacity - buffer.size := by
  have sizeLe := wellFormed.size_le
  have sizeNe : buffer.size ≠ capacity := by simpa [isFull] using notFull
  have positive : 0 < capacity := by omega
  have startLt := wellFormed.start_lt positive
  have wrapped := wrap_eq startLt sizeLe
  simp only [StagingBuffer.room?, end?, cell?_of_pos positive, notFull, Option.map_some,
    Option.some.injEq, Bool.false_eq_true, if_false] at room
  simp only [← room, Region.length, wrapped]
  split <;> split <;> omega

/-- Staging bytes that fit into the room is writing them there and claiming them. -/
theorem WellFormed.stage_append_of_fits (wellFormed : buffer.WellFormed)
    (notFull : buffer.isFull = false) {region : Region}
    (room : buffer.room? = some region) (fits : bytes.length ≤ region.length)
    (rest : List UInt8) :
    buffer.stage (bytes ++ rest) =
      ((buffer.fill region bytes).claim bytes.length).stage rest := by
  induction bytes using List.reverseRecOn generalizing rest with
  | nil => rw [List.nil_append, List.length_nil, wellFormed.claim_fill_nil]
  | append_singleton written last induction =>
      rw [List.length_append, List.length_singleton] at fits
      have writtenFits : written.length ≤ region.length := by omega
      rcases wellFormed.room? notFull with ⟨known, isRoom, atEnd, _, inFree, inRing, _⟩
      cases room.symm.trans isRoom
      rcases wellFormed.claim_fill notFull room writtenFits with
        ⟨stillWellFormed, grown, _⟩
      let middle := (buffer.fill region written).claim written.length
      have stillNotFull : middle.isFull = false := by
        simp only [isFull, beq_eq_false_iff_ne, middle, grown]
        omega
      rcases stillWellFormed.stage_cons stillNotFull last rest with
        ⟨next, nextRoom, nonempty, staged⟩
      have nextFirst : next.first = region.first + written.length := by
        rcases stillWellFormed.room? stillNotFull with ⟨again, isAgain, nextAtEnd, _⟩
        cases nextRoom.symm.trans isAgain
        change next.first = (buffer.start + middle.size) % capacity at nextAtEnd
        have inCells : region.first + written.length < capacity := by omega
        rw [nextAtEnd, grown, ← Nat.add_assoc, ← Nat.mod_add_mod, ← atEnd,
          Nat.mod_eq_of_lt inCells]
      have joined : (middle.fill next [last]).claim 1 =
          (buffer.fill region (written ++ [last])).claim (written ++ [last]).length := by
        have singleTaken : [last].take next.length = [last] :=
          List.take_of_length_le nonempty
        have writtenTaken : written.take region.length = written :=
          List.take_of_length_le writtenFits
        have allTaken : (written ++ [last]).take region.length = written ++ [last] := by
          apply List.take_of_length_le
          simpa using fits
        have sizes : min (min (buffer.size + written.length) capacity + 1) capacity =
            min (buffer.size + (written.length + 1)) capacity := by omega
        simp only [middle, claim, fill, singleTaken, writtenTaken, allTaken, nextFirst,
          overwrite_append, List.length_append, List.length_singleton, sizes]
      rw [List.append_assoc, List.singleton_append, induction writtenFits, staged, joined]

structure Copied (buffer : StagingBuffer capacity) (bytes : List UInt8)
    (middle : StagingBuffer capacity) (count : Nat) : Prop where
  wellFormed : middle.WellFormed
  progress : bytes ≠ [] → 0 < count
  staged : buffer.stage bytes = middle.stage (bytes.drop count)
  /-- Unless the bytes are exhausted or the ring is full, the ring is now staged up to its
  end. -/
  wrapped : bytes.drop count = [] ∨ middle.isFull = true ∨
    capacity ≤ middle.start + middle.size
  /-- A ring that is staged up to its end takes all that it can at once. -/
  single : capacity ≤ buffer.start + buffer.size →
    bytes.drop count = [] ∨ middle.isFull = true

private theorem WellFormed.copied (wellFormed : buffer.WellFormed)
    (notFull : buffer.isFull = false) (bytes : List UInt8) :
    ∃ middle count, buffer.receive? bytes = some (middle, count) ∧
      Copied buffer bytes middle count := by
  rcases wellFormed.room? notFull with ⟨region, room, _, nonempty, inFree, _⟩
  have length := wellFormed.length_room? notFull room
  have sizeLe := wellFormed.size_le
  let written := bytes.take region.length
  let count := min region.length bytes.length
  have writtenLength : written.length = count := List.length_take
  have fits : written.length ≤ region.length := by omega
  let middle := (buffer.fill region written).claim written.length
  rcases wellFormed.claim_fill notFull room fits with ⟨stillWellFormed, grown, _⟩
  have received : buffer.receive? bytes = some (middle, count) :=
    receive?_of_room? room bytes
  have split : written ++ bytes.drop count = bytes := by
    have isTaken : written = bytes.take count := by
      simp [written, count, List.take_eq_take_iff]
    rw [isTaken, List.take_append_drop]
  have grownTo : middle.size = buffer.size + count := by rw [← writtenLength]; exact grown
  have sameStart : middle.start = buffer.start := rfl
  have exhausted (short : bytes.length ≤ region.length) : bytes.drop count = [] := by
    apply List.drop_of_length_le
    omega
  have filledUp (isFree : region.length = capacity - buffer.size)
      (long : region.length ≤ bytes.length) : middle.isFull = true := by
    simp only [isFull, beq_iff_eq, grownTo]
    omega
  refine ⟨middle, count, received, stillWellFormed, ?_, ?_, ?_, ?_⟩
  · intro some
    have somePositive := List.length_pos_iff.mpr some
    omega
  · rw [← wellFormed.stage_append_of_fits notFull room fits, split]
  · rcases Nat.le_total bytes.length region.length with short | long
    · exact .inl (exhausted short)
    · rw [grownTo, sameStart]
      split at length
      · exact .inr (.inr (by omega))
      · exact .inr (.inl (filledUp length long))
  · intro atEnd
    rw [if_neg (by omega)] at length
    rcases Nat.le_total bytes.length region.length with short | long
    · exact .inl (exhausted short)
    · exact .inr (filledUp length long)

private theorem CopiesIn.copied {count : Nat} (wellFormed : buffer.WellFormed)
    (notFull : buffer.isFull = false)
    (received : buffer.receive? bytes = some (middle, count)) :
    Copied buffer bytes middle count := by
  rcases wellFormed.copied notFull bytes with ⟨known, knownCount, isReceived, copied⟩
  cases received.symm.trans isReceived
  exact copied

/-! ## All copies -/

private theorem CopiesIn.stage_eq (run : CopiesIn buffer bytes copies after left)
    (wellFormed : buffer.WellFormed) :
    buffer.stage bytes = (after, if left = [] then none else some .stagingFull) := by
  induction run with
  | exhausted => rfl
  | @full buffer bytes isFull =>
      cases bytes with
      | nil => rfl
      | cons byte rest => simp [stage, isFull]
  | copy notFull _ received _ induction =>
      have copied := CopiesIn.copied wellFormed notFull received
      rw [copied.staged]
      exact induction copied.wellFormed

private theorem CopiesIn.copies_eq_zero (run : CopiesIn buffer bytes copies after left)
    (done : bytes = [] ∨ buffer.isFull = true) : copies = 0 := by
  cases run with
  | exhausted => rfl
  | full => rfl
  | copy notFull nonempty =>
      rcases done with exhausted | full
      · exact absurd exhausted nonempty
      · rw [full] at notFull
        cases notFull

private theorem CopiesIn.copies_le_one (run : CopiesIn buffer bytes copies after left)
    (wellFormed : buffer.WellFormed)
    (wrapped : capacity ≤ buffer.start + buffer.size) : copies ≤ 1 := by
  cases run with
  | exhausted => exact Nat.zero_le 1
  | full => exact Nat.zero_le 1
  | copy notFull _ received behind =>
      have copied := CopiesIn.copied wellFormed notFull received
      have noMore := behind.copies_eq_zero (copied.single wrapped)
      omega

private theorem CopiesIn.copies_le_two (run : CopiesIn buffer bytes copies after left)
    (wellFormed : buffer.WellFormed) : copies ≤ 2 := by
  cases run with
  | exhausted => exact Nat.zero_le 2
  | full => exact Nat.zero_le 2
  | copy notFull _ received behind =>
      have copied := CopiesIn.copied wellFormed notFull received
      apply Nat.succ_le_succ
      rcases copied.wrapped with exhausted | full | wrapped
      · rw [behind.copies_eq_zero (.inl exhausted)]
        exact Nat.zero_le 1
      · rw [behind.copies_eq_zero (.inr full)]
        exact Nat.zero_le 1
      · exact behind.copies_le_one copied.wellFormed wrapped

/-- The copies come to an end, since each takes at least one of the bytes. -/
theorem WellFormed.exists_copiesIn (wellFormed : buffer.WellFormed) (bytes : List UInt8) :
    ∃ copies after left, CopiesIn buffer bytes copies after left := by
  induction isTotal : bytes.length using Nat.strongRecOn generalizing buffer bytes with
  | ind total induction =>
      cases isFull : buffer.isFull with
      | true => exact ⟨0, buffer, bytes, .full isFull⟩
      | false =>
          by_cases nonempty : bytes = []
          · rw [nonempty]
            exact ⟨0, buffer, [], .exhausted⟩
          · rcases wellFormed.copied isFull bytes with ⟨middle, count, received, copied⟩
            have progress := copied.progress nonempty
            have shorter : (bytes.drop count).length < total := by
              have somePositive := List.length_pos_iff.mpr nonempty
              rw [List.length_drop]
              omega
            rcases induction _ shorter copied.wellFormed (bytes.drop count) rfl with
              ⟨copies, after, left, behind⟩
            exact ⟨copies + 1, after, left, .copy isFull nonempty received behind⟩

/-- Copying blocks into the room until the bytes are exhausted or the ring is full comes
to an end after at most two copies, with the ring that staging the bytes one by one makes;
bytes are left over exactly when that reports a full ring. -/
theorem copies_agree_with_stage (positive : 0 < capacity) (reachable : buffer.Reachable)
    (bytes : List UInt8) :
    (∃ copies after left, CopiesIn buffer bytes copies after left) ∧
      ∀ copies after left, CopiesIn buffer bytes copies after left →
        copies ≤ 2 ∧ after = (buffer.stage bytes).1 ∧
          (left ≠ [] ↔ (buffer.stage bytes).2 = some .stagingFull) := by
  have wellFormed := reachable.wellFormed positive
  refine ⟨wellFormed.exists_copiesIn bytes, ?_⟩
  intro copies after left run
  rw [run.stage_eq wellFormed]
  refine ⟨run.copies_le_two wellFormed, rfl, ?_⟩
  by_cases exhausted : left = [] <;> simp [exhausted]

/-- A ring of five cells whose only staged byte lies before the last cell takes one byte
up to the end and three from the start on. -/
theorem copies_around_the_end :
    let buffer : StagingBuffer 5 := ⟨#v[1, 2, 3, 4, 0], 3, 1⟩
    let after : StagingBuffer 5 := ⟨#v[6, 7, 8, 4, 5], 3, 5⟩
    0 < 5 ∧ buffer.Reachable ∧ CopiesIn buffer [5, 6, 7, 8, 9] 2 after [9] ∧
      (buffer.stage [5, 6, 7, 8, 9]).1 = after ∧
      (buffer.stage [5, 6, 7, 8, 9]).2 = some .stagingFull := by
  intro buffer after
  have positive : 0 < 5 := by decide
  have reachable : buffer.Reachable :=
    .released ⟨3⟩ (by decide) (.staged [1, 2, 3, 4] .empty)
  have run : CopiesIn buffer [5, 6, 7, 8, 9] 2 after [9] := by
    let middle : StagingBuffer 5 := ⟨#v[1, 2, 3, 4, 5], 3, 2⟩
    have upToTheEnd : buffer.receive? [5, 6, 7, 8, 9] = some (middle, 1) := by decide
    have fromTheStart : middle.receive? [6, 7, 8, 9] = some (after, 3) := by decide
    apply CopiesIn.copy (by decide) (by decide) upToTheEnd
    apply CopiesIn.copy (by decide) (by decide) fromTheStart
    exact .full (by decide)
  rcases (copies_agree_with_stage positive reachable [5, 6, 7, 8, 9]).2 2 after [9]
    run with ⟨_, isStaged, refused⟩
  exact ⟨positive, reachable, run, isStaged.symm, refused.mp (by decide)⟩

end TriggerBench.StagingBuffer
