import TriggerBench.StagingBuffer

/-! # Contents of the staging buffer

What each operation does to the list of staged bytes. A position wraps at most once on the
way around the ring, which turns every question about cells into linear arithmetic.
-/

namespace TriggerBench.StagingBuffer

variable {capacity : Nat}

structure WellFormed (buffer : StagingBuffer capacity) : Prop where
  start_lt : 0 < capacity → buffer.start < capacity
  size_le : buffer.size ≤ capacity

/-! ## Positions -/

theorem wrap_eq {start offset : Nat} (startLt : start < capacity)
    (offsetLe : offset ≤ capacity) :
    (start + offset) % capacity =
      if start + offset < capacity then start + offset
        else start + offset - capacity := by
  split
  case isTrue within => exact Nat.mod_eq_of_lt within
  case isFalse beyond =>
      rw [Nat.mod_eq_sub_mod (by omega)]
      exact Nat.mod_eq_of_lt (by omega)

theorem cell?_of_pos (positive : 0 < capacity) (position : Nat) :
    cell? capacity position = some ⟨position % capacity, Nat.mod_lt _ positive⟩ := by
  simp [cell?, positive]

/-! ## The list of staged bytes -/

theorem toList_eq_map (buffer : StagingBuffer capacity) (positive : 0 < capacity) :
    buffer.toList = (List.range buffer.size).map fun offset =>
      have inRing := Nat.mod_lt (buffer.start + offset) positive
      buffer.cells[(buffer.start + offset) % capacity] := by
  rw [toList, ← List.filterMap_eq_map]
  congr 1
  funext offset
  simp [byteAt?, cell?_of_pos positive]

theorem toList_of_size_eq_zero {buffer : StagingBuffer capacity}
    (nothing : buffer.size = 0) :
    buffer.toList = [] := by
  simp [toList, nothing]

@[simp] theorem toList_discard (buffer : StagingBuffer capacity) :
    buffer.discard.toList = [] :=
  toList_of_size_eq_zero rfl

theorem WellFormed.length_toList {buffer : StagingBuffer capacity}
    (wellFormed : buffer.WellFormed) :
    buffer.toList.length = buffer.size := by
  rcases Nat.eq_zero_or_pos capacity with none | positive
  · have sizeLe := wellFormed.size_le
    have nothing : buffer.size = 0 := by omega
    rw [toList_of_size_eq_zero nothing, nothing]
    rfl
  · simp [buffer.toList_eq_map positive]

theorem wellFormed_empty : (empty : StagingBuffer capacity).WellFormed where
  start_lt positive := positive
  size_le := Nat.zero_le _

theorem wellFormed_discard (buffer : StagingBuffer capacity) :
    buffer.discard.WellFormed where
  start_lt positive := positive
  size_le := Nat.zero_le _

/-! ## Releasing -/

theorem WellFormed.release? {buffer : StagingBuffer capacity}
    (wellFormed : buffer.WellFormed) (positive : 0 < capacity) (mark : Mark) :
    ∃ after, buffer.release? mark = some after ∧ after.WellFormed ∧
      after.size = buffer.size - mark.count ∧
      after.toList = buffer.toList.drop mark.count := by
  have startLt := wellFormed.start_lt positive
  have sizeLe := wellFormed.size_le
  let count := min mark.count buffer.size
  let after : StagingBuffer capacity :=
    { buffer with start := (buffer.start + count) % capacity,
                  size := buffer.size - count }
  have released : buffer.release? mark = some after := by
    simp [StagingBuffer.release?, cell?_of_pos positive, after, count]
  have remaining : after.size = buffer.size - mark.count := by
    change buffer.size - min mark.count buffer.size = buffer.size - mark.count
    omega
  refine ⟨after, released, ⟨fun _ => Nat.mod_lt _ positive, ?_⟩, remaining, ?_⟩
  · omega
  · apply List.ext_getElem
    · rw [List.length_drop, wellFormed.length_toList, after.toList_eq_map positive]
      simpa using remaining
    · intro offset inAfter inDropped
      have withinRest : mark.count + offset < buffer.size := by
        rw [List.length_drop, wellFormed.length_toList] at inDropped
        omega
      have counted : count = mark.count := by
        change min mark.count buffer.size = mark.count
        omega
      have samePosition : ((buffer.start + count) % capacity + offset) % capacity =
          (buffer.start + (mark.count + offset)) % capacity := by
        rw [Nat.mod_add_mod, counted, Nat.add_assoc]
      simp only [after.toList_eq_map positive, buffer.toList_eq_map positive,
        List.getElem_map, List.getElem_range, List.getElem_drop]
      simp only [after, samePosition]

/-! ## Receiving -/

theorem getElem_overwrite (cells : Vector UInt8 capacity) (position : Nat)
    (bytes : List UInt8) (index : Nat) (inRing : index < capacity) :
    (overwrite cells position bytes)[index] =
      if index < position then cells[index]
        else (bytes[index - position]?).getD cells[index] := by
  induction bytes generalizing cells position with
  | nil => simp [overwrite]
  | cons byte rest induction =>
      rw [overwrite, induction]
      rcases Nat.lt_trichotomy index position with before | here | behind
      · have beforeNext : index < position + 1 := by omega
        have different : position ≠ index := by omega
        simp [before, beforeNext, different]
      · subst index
        simp
      · have notBefore : ¬index < position := by omega
        have notBeforeNext : ¬index < position + 1 := by omega
        have different : position ≠ index := by omega
        have nextOffset : index - position = (index - (position + 1)) + 1 := by omega
        simp [notBefore, notBeforeNext, different, nextOffset]

/-- A ring that is not full has room behind the staged bytes, and no more than there are
free cells. -/
theorem WellFormed.room? {buffer : StagingBuffer capacity}
    (wellFormed : buffer.WellFormed) (notFull : buffer.isFull = false) :
    ∃ region, buffer.room? = some region ∧
      region.first = (buffer.start + buffer.size) % capacity ∧
      0 < region.length ∧ region.length ≤ capacity - buffer.size ∧
      region.first + region.length ≤ capacity ∧
      (region.first < buffer.start → region.first + region.length ≤ buffer.start) := by
  have sizeLe := wellFormed.size_le
  have sizeNe : buffer.size ≠ capacity := by simpa [isFull] using notFull
  have positive : 0 < capacity := by omega
  have startLt := wellFormed.start_lt positive
  have wrapped := wrap_eq startLt sizeLe
  let cell := (buffer.start + buffer.size) % capacity
  let region : Region :=
    { first := cell, stop := if buffer.start ≤ cell then capacity else buffer.start }
  have room : buffer.room? = some region := by
    simp [StagingBuffer.room?, end?, cell?_of_pos positive, notFull, region, cell]
  refine ⟨region, room, rfl, ?_⟩
  simp only [Region.length, region, cell, wrapped]
  split <;> split <;> omega

/-- Bytes that are written to the start of the room and claimed join the staged ones at
the end. -/
theorem WellFormed.claim_fill {buffer : StagingBuffer capacity}
    (wellFormed : buffer.WellFormed) (notFull : buffer.isFull = false) {region : Region}
    (room : buffer.room? = some region) {bytes : List UInt8}
    (fits : bytes.length ≤ region.length) :
    ((buffer.fill region bytes).claim bytes.length).WellFormed ∧
      ((buffer.fill region bytes).claim bytes.length).size = buffer.size + bytes.length ∧
      ((buffer.fill region bytes).claim bytes.length).toList =
        buffer.toList ++ bytes := by
  rcases wellFormed.room? notFull with
    ⟨known, isRoom, atEnd, _, inFree, inRing, beforeStart⟩
  cases room.symm.trans isRoom
  have sizeLe := wellFormed.size_le
  have positive : 0 < capacity := by omega
  have startLt := wellFormed.start_lt positive
  have allTaken : bytes.take region.length = bytes := List.take_of_length_le fits
  let after := (buffer.fill region bytes).claim bytes.length
  have grown : after.size = buffer.size + bytes.length := by
    change min (buffer.size + bytes.length) capacity = buffer.size + bytes.length
    omega
  have afterSizeLe : after.size ≤ capacity := by omega
  refine ⟨⟨fun _ => startLt, afterSizeLe⟩, grown, ?_⟩
  apply List.ext_getElem
  · rw [List.length_append, wellFormed.length_toList, toList_eq_map _ positive]
    simpa using grown
  · intro offset inAfter inBoth
    have withinAfter : offset < buffer.size + bytes.length := by
      simpa [wellFormed.length_toList] using inBoth
    have position := wrap_eq startLt (show offset ≤ capacity by omega)
    have endPosition := wrap_eq startLt sizeLe
    rw [← atEnd] at endPosition
    rw [List.getElem_of_eq (toList_eq_map _ positive)]
    simp only [List.getElem_map, List.getElem_range, claim, fill, allTaken,
      getElem_overwrite]
    by_cases old : offset < buffer.size
    · rw [List.getElem_append_left (by rwa [wellFormed.length_toList]),
        List.getElem_of_eq (buffer.toList_eq_map positive), List.getElem_map]
      simp only [List.getElem_range]
      -- A staged cell lies before the room, or behind all that was written to it.
      by_cases before : (buffer.start + offset) % capacity < region.first
      · rw [if_pos before]
      · have behind : bytes.length ≤ (buffer.start + offset) % capacity -
            region.first := by
          rw [position] at before ⊢
          split at endPosition <;> split at before <;> split <;> omega
        rw [if_neg before, List.getElem?_eq_none behind, Option.getD_none]
    · have distance : (buffer.start + offset) % capacity =
          region.first + (offset - buffer.size) := by
        rw [position]
        split at endPosition <;> split <;> omega
      have written : offset - buffer.size < bytes.length := by omega
      rw [List.getElem_append_right (by rw [wellFormed.length_toList]; omega)]
      simp only [distance, Nat.add_sub_cancel_left, wellFormed.length_toList,
        List.getElem?_eq_getElem written, Option.getD_some]
      rw [if_neg (by omega)]

end TriggerBench.StagingBuffer
