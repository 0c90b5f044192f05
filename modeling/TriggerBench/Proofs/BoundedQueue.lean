import TriggerBench.Proofs.Ring

/-! # The staging buffer as a bounded queue

However a ring is used, one sees of it what one would see of a plain list of bytes that is
added to at one end, used up at the other, and never longer than the capacity. Where the
ring starts and how it wraps shows in one thing only: it may offer less room at once than
it has free cells.
-/

namespace TriggerBench.StagingBuffer

variable {capacity : Nat}

/-- One use of a ring. A mark may come from any cursor, also from one over an earlier
state, and more than once. -/
inductive Use
  | stage (bytes : List UInt8)
  | receive (bytes : List UInt8)
  | walk (count : Nat)
  | release (mark : Mark)
  | discard
  deriving DecidableEq, Repr

inductive Seen
  | staged (refusal : Option Violation)
  /-- How much room was offered, and how many bytes were written to its start and
  claimed. -/
  | received (room count : Nat)
  | walked (bytes : List UInt8) (mark : Mark)
  | released
  | discarded
  deriving DecidableEq, Repr

def use? (buffer : StagingBuffer capacity) : Use → Option (Seen × StagingBuffer capacity)
  | .stage bytes =>
      match buffer.stage bytes with
      | (after, refusal) => some (.staged refusal, after)
  | .receive bytes =>
      match buffer.room?, buffer.receive? bytes with
      | some region, some (after, count) => some (.received region.length count, after)
      | _, _ => none
  | .walk count =>
      match buffer.cursor.take count with
      | (bytes, cursor) => some (.walked bytes cursor.mark, buffer)
  | .release mark => (buffer.release? mark).map fun after => (.released, after)
  | .discard => some (.discarded, buffer.discard)

def uses? (buffer : StagingBuffer capacity) :
    List Use → Option (List Seen × StagingBuffer capacity)
  | [] => some ([], buffer)
  | first :: later =>
      match buffer.use? first with
      | none => none
      | some (seen, middle) =>
          (middle.uses? later).map fun (seenLater, after) => (seen :: seenLater, after)

/-! ## Queues -/

namespace Queue

/-- One use of a queue. It leaves open how much room is offered for receiving, as long as
it is some where there is any. -/
inductive Step (capacity : Nat) (queue : List UInt8) : Use → Seen → List UInt8 → Prop
  | stage (bytes : List UInt8) :
      Step capacity queue (.stage bytes)
        (.staged (if bytes.length ≤ capacity - queue.length then none
          else some .stagingFull)) (queue ++ bytes.take (capacity - queue.length))
  | receive {room : Nat} (bytes : List UInt8) (inFree : room ≤ capacity - queue.length)
      (offered : room = 0 ↔ queue.length = capacity) :
      Step capacity queue (.receive bytes) (.received room (min room bytes.length))
        (queue ++ bytes.take room)
  | walk (count : Nat) :
      Step capacity queue (.walk count)
        (.walked (queue.take count) ⟨min count queue.length⟩) queue
  | release (mark : Mark) :
      Step capacity queue (.release mark) .released
        (queue.drop (min mark.count queue.length))
  | discard : Step capacity queue .discard .discarded []

inductive Transitions (capacity : Nat) :
    List UInt8 → List Use → List Seen → List UInt8 → Prop
  | nil {queue} : Transitions capacity queue [] [] queue
  | cons {queue middle final use seen uses seenLater}
      (step : Step capacity queue use seen middle)
      (behind : Transitions capacity middle uses seenLater final) :
      Transitions capacity queue (use :: uses) (seen :: seenLater) final

end Queue

/-! ## Staging -/

section

variable {buffer : StagingBuffer capacity} (wellFormed : buffer.WellFormed)
include wellFormed

/-- Staging one byte is receiving it at the start of the room. -/
theorem WellFormed.stage_cons (notFull : buffer.isFull = false) (byte : UInt8)
    (rest : List UInt8) :
    ∃ region, buffer.room? = some region ∧ 0 < region.length ∧
      buffer.stage (byte :: rest) = ((buffer.fill region [byte]).claim 1).stage rest := by
  rcases wellFormed.room? notFull with ⟨region, room, atEnd, nonempty, inFree, inRing, _⟩
  have positive : 0 < capacity := by omega
  have grows : min (buffer.size + 1) capacity = buffer.size + 1 := by omega
  have fits : [byte].take region.length = [byte] := List.take_of_length_le nonempty
  refine ⟨region, room, nonempty, ?_⟩
  have written : buffer.cells.set ((buffer.start + buffer.size) % capacity) byte
      (Nat.mod_lt _ positive) =
      buffer.cells.setIfInBounds ((buffer.start + buffer.size) % capacity) byte := by
    ext index inBounds
    simp only [Vector.getElem_set, Vector.getElem_setIfInBounds]
  simp only [stage, notFull, Bool.false_eq_true, if_false, end?, cell?_of_pos positive]
  congr 1
  simp only [stageAt, written, claim, fill, fits, overwrite, atEnd, grows]

theorem WellFormed.stage (bytes : List UInt8) :
    (buffer.stage bytes).1.WellFormed ∧
      (buffer.stage bytes).1.toList =
        buffer.toList ++ bytes.take (capacity - buffer.size) ∧
      (buffer.stage bytes).2 = if bytes.length ≤ capacity - buffer.size then none
        else some .stagingFull := by
  induction bytes generalizing buffer with
  | nil => simpa [StagingBuffer.stage] using wellFormed
  | cons byte rest induction =>
      have sizeLe := wellFormed.size_le
      cases full : buffer.isFull with
      | true =>
          have noRoom : capacity - buffer.size = 0 := by
            have isCapacity : buffer.size = capacity := by simpa [isFull] using full
            omega
          simpa [StagingBuffer.stage, full, noRoom] using wellFormed
      | false =>
          rcases wellFormed.stage_cons full byte rest with
            ⟨region, room, nonempty, staged⟩
          have single : [byte].length ≤ region.length := nonempty
          rcases wellFormed.claim_fill full room single with
            ⟨stillWellFormed, grown, joined⟩
          have notFull : buffer.size ≠ capacity := by simpa [isFull] using full
          have free : capacity - buffer.size = (capacity - (buffer.size + 1)) + 1 := by
            omega
          rcases induction stillWellFormed with ⟨afterWellFormed, contents, refusal⟩
          rw [List.length_singleton] at grown joined afterWellFormed contents refusal
          rw [grown] at contents refusal
          rw [staged]
          refine ⟨afterWellFormed, ?_, ?_⟩
          · rw [contents, joined, free, List.take_succ_cons, List.append_assoc,
              List.singleton_append]
          · rw [refusal, free, List.length_cons]
            simp only [Nat.add_le_add_iff_right]

/-! ## Walking -/

theorem WellFormed.byteAt? {offset : Nat} (staged : offset < buffer.size) :
    buffer.byteAt? offset = buffer.toList[offset]? := by
  have sizeLe := wellFormed.size_le
  have positive : 0 < capacity := by omega
  rw [toList_eq_map _ positive, List.getElem?_map, List.getElem?_range staged]
  simp [StagingBuffer.byteAt?, cell?_of_pos positive]

private theorem WellFormed.take_cursor (count walked : Nat)
    (inStaged : walked ≤ buffer.size) :
    Cursor.take { buffer, walked } count =
      ((buffer.toList.drop walked).take count,
        { buffer, walked := min (walked + count) buffer.size }) := by
  have length := wellFormed.length_toList
  induction count generalizing walked with
  | zero => simp [Cursor.take, Nat.min_eq_left inStaged]
  | succ count induction =>
      rcases Nat.eq_or_lt_of_le inStaged with rfl | staged
      · simp [Cursor.take, Cursor.next?, ← length]
      · have inList : walked < buffer.toList.length := by omega
        have next : Cursor.next? { buffer, walked } =
            some (buffer.toList[walked], { buffer, walked := walked + 1 }) := by
          simp [Cursor.next?, Nat.not_le.mpr staged, wellFormed.byteAt? staged, inList]
        rw [Cursor.take, next]
        simp only
        rw [induction (walked + 1) staged, List.drop_eq_getElem_cons inList,
          List.take_succ_cons]
        simp only [Nat.add_assoc, Nat.add_comm 1 count]

/-! ## Room -/

/-- The room behind the staged bytes holds none of them, and it is empty where there is no
free cell. -/
theorem WellFormed.room?_free (positive : 0 < capacity) :
    ∃ region, buffer.room? = some region ∧ region.first ≤ region.stop ∧
      region.stop ≤ capacity ∧
      region.length ≤ capacity - buffer.size ∧
      (region.length = 0 ↔ buffer.size = capacity) ∧
      ∀ offset < buffer.size, ∀ position, region.first ≤ position →
      position < region.stop → (buffer.start + offset) % capacity ≠ position := by
  have sizeLe := wellFormed.size_le
  have startLt := wellFormed.start_lt positive
  cases full : buffer.isFull with
  | true =>
      have isCapacity : buffer.size = capacity := by simpa [isFull] using full
      have inRing : (buffer.start + buffer.size) % capacity < capacity :=
        Nat.mod_lt _ positive
      refine ⟨⟨(buffer.start + buffer.size) % capacity,
        (buffer.start + buffer.size) % capacity⟩, ?_, ?_⟩
      · simp [StagingBuffer.room?, end?, cell?_of_pos positive, full]
      · simp only [Region.length]
        refine ⟨Nat.le_refl _, by omega, by omega, by omega, ?_⟩
        intro _ _ _ behind before
        omega
  | false =>
      rcases wellFormed.room? full with
        ⟨region, room, atEnd, nonempty, inFree, inRing, beforeStart⟩
      have notCapacity : buffer.size ≠ capacity := by simpa [isFull] using full
      have ordered : region.first < region.stop := Nat.sub_pos_iff_lt.mp nonempty
      refine ⟨region, room, Nat.le_of_lt ordered, ?_, inFree, by omega, ?_⟩
      · simp only [Region.length] at inRing
        omega
      · intro offset staged position behind before
        have ofOffset := wrap_eq startLt (show offset ≤ capacity by omega)
        have ofEnd := wrap_eq startLt sizeLe
        rw [← atEnd] at ofEnd
        simp only [Region.length] at nonempty inRing beforeStart
        rw [ofOffset]
        split at ofEnd <;> split <;> omega

end

/-! ## Any use -/

structure Holds (buffer : StagingBuffer capacity) (queue : List UInt8) : Prop where
  start_lt : buffer.start < capacity
  size_le : buffer.size ≤ capacity
  size_eq : buffer.size = queue.length
  /-- A fresh cursor comes upon the bytes, the oldest first, and stays at the end. -/
  walked : ∀ count, (buffer.cursor.take count).1 = queue.take count ∧
    (buffer.cursor.take count).2.mark.count = min count queue.length
  /-- What is written to the room behind the bytes overwrites none of them. -/
  room : ∃ region, buffer.room? = some region ∧ region.first ≤ region.stop ∧
    region.stop ≤ capacity ∧ (region.length = 0 ↔ buffer.isFull = true) ∧
      ∀ offset < buffer.size, ∀ position, region.first ≤ position →
      position < region.stop → (buffer.start + offset) % capacity ≠ position

theorem WellFormed.walk {buffer : StagingBuffer capacity} (wellFormed : buffer.WellFormed)
    (count : Nat) :
    buffer.cursor.take count =
      (buffer.toList.take count, { buffer, walked := min count buffer.size }) := by
  have walked := wellFormed.take_cursor count 0 (Nat.zero_le _)
  rwa [List.drop_zero, Nat.zero_add] at walked

theorem WellFormed.holds {buffer : StagingBuffer capacity}
    (wellFormed : buffer.WellFormed) (positive : 0 < capacity) :
    buffer.Holds buffer.toList where
  start_lt := wellFormed.start_lt positive
  size_le := wellFormed.size_le
  size_eq := wellFormed.length_toList.symm
  walked count := by
    rw [wellFormed.walk, wellFormed.length_toList]
    exact ⟨rfl, rfl⟩
  room := by
    rcases wellFormed.room?_free positive with
      ⟨region, room, ordered, inRing, _, empty, free⟩
    exact ⟨region, room, ordered, inRing, by simpa [isFull] using empty, free⟩

theorem WellFormed.claim_fill_nil {buffer : StagingBuffer capacity}
    (wellFormed : buffer.WellFormed) (region : Region) :
    (buffer.fill region []).claim 0 = buffer := by
  simp only [fill, List.take_nil, overwrite, claim, Nat.add_zero,
    Nat.min_eq_left wellFormed.size_le]

/-- Receiving writes the bytes that the room takes, and claims just these. -/
theorem receive?_of_room? {buffer : StagingBuffer capacity} {region : Region}
    (room : buffer.room? = some region) (bytes : List UInt8) :
    buffer.receive? bytes =
      some ((buffer.fill region (bytes.take region.length)).claim
        (bytes.take region.length).length, min region.length bytes.length) := by
  have filled : buffer.fill region bytes =
      buffer.fill region (bytes.take region.length) := by
    simp only [fill, List.take_take, Nat.min_self]
  simp only [receive?, room, Option.map_some, filled, List.length_take]

theorem WellFormed.receive? {buffer : StagingBuffer capacity}
    (wellFormed : buffer.WellFormed) {region : Region} (room : buffer.room? = some region)
    (empty : region.length = 0 ↔ buffer.size = capacity) (bytes : List UInt8) :
    ∃ after, buffer.receive? bytes = some (after, min region.length bytes.length) ∧
      after.WellFormed ∧ after.toList = buffer.toList ++ bytes.take region.length := by
  let written := bytes.take region.length
  have count : written.length = min region.length bytes.length := List.length_take
  refine ⟨(buffer.fill region written).claim written.length,
    receive?_of_room? room bytes, ?_⟩
  cases full : buffer.isFull with
  | true =>
      have noRoom : region.length = 0 := empty.mpr (by simpa [isFull] using full)
      have nothing : written = [] := by simp [written, noRoom]
      rw [nothing, List.length_nil, wellFormed.claim_fill_nil, noRoom, List.take_zero,
        List.append_nil]
      exact ⟨wellFormed, rfl⟩
  | false =>
      have fits : written.length ≤ region.length := by omega
      rcases wellFormed.claim_fill full room fits with ⟨stillWellFormed, _, joined⟩
      exact ⟨stillWellFormed, joined⟩

/-- Each use of a ring is one of the queue that waits in it. -/
theorem WellFormed.use? {buffer : StagingBuffer capacity} (wellFormed : buffer.WellFormed)
    (positive : 0 < capacity) (use : Use) :
    ∃ seen after, buffer.use? use = some (seen, after) ∧ after.WellFormed ∧
      Queue.Step capacity buffer.toList use seen after.toList := by
  have length := wellFormed.length_toList
  cases use with
  | stage bytes =>
      rcases wellFormed.stage bytes with ⟨stillWellFormed, contents, refusal⟩
      refine ⟨_, _, rfl, stillWellFormed, ?_⟩
      rw [contents, refusal, ← length]
      exact .stage bytes
  | receive bytes =>
      rcases wellFormed.room?_free positive with ⟨region, room, _, _, inFree, empty, _⟩
      rcases wellFormed.receive? room empty bytes with
        ⟨after, received, stillWellFormed, contents⟩
      refine ⟨.received region.length (min region.length bytes.length), after, ?_,
        stillWellFormed, ?_⟩
      · simp only [StagingBuffer.use?, room, received]
      · rw [contents]
        rw [← length] at inFree empty
        exact .receive bytes inFree empty
  | walk count =>
      refine ⟨_, buffer, rfl, wellFormed, ?_⟩
      rw [wellFormed.walk, ← length]
      exact .walk count
  | release mark =>
      rcases wellFormed.release? positive mark with
        ⟨after, released, stillWellFormed, _, contents⟩
      refine ⟨.released, after, by simp only [StagingBuffer.use?, released,
        Option.map_some], stillWellFormed, ?_⟩
      have oldest : buffer.toList.drop mark.count =
          buffer.toList.drop (min mark.count buffer.toList.length) := by
        rcases Nat.le_total mark.count buffer.toList.length with inList | beyond
        · rw [Nat.min_eq_left inList]
        · rw [Nat.min_eq_right beyond, List.drop_length, List.drop_of_length_le beyond]
      rw [contents, oldest]
      exact .release mark
  | discard =>
      refine ⟨_, _, rfl, wellFormed_discard buffer, ?_⟩
      rw [toList_discard]
      exact .discard

private theorem WellFormed.uses? {buffer : StagingBuffer capacity}
    (wellFormed : buffer.WellFormed) (positive : 0 < capacity) (uses : List Use) :
    ∃ seen after, buffer.uses? uses = some (seen, after) ∧ after.WellFormed ∧
      Queue.Transitions capacity buffer.toList uses seen after.toList := by
  induction uses generalizing buffer with
  | nil => exact ⟨[], buffer, rfl, wellFormed, .nil⟩
  | cons first later induction =>
      rcases wellFormed.use? positive first with
        ⟨seen, middle, used, middleWellFormed, step⟩
      rcases induction middleWellFormed with
        ⟨seenLater, after, usedLater, afterWellFormed, behind⟩
      refine ⟨seen :: seenLater, after, ?_, afterWellFormed, .cons step behind⟩
      simp only [StagingBuffer.uses?, used, usedLater, Option.map_some]

/-- However a ring with cells is used from the start, it always has the positions that it
needs, what is seen of it is seen of a queue, and in the end the bytes of that queue wait
in it. -/
theorem refines_bounded_queue (positive : 0 < capacity) (uses : List Use) :
    ∃ seen buffer queue, (empty : StagingBuffer capacity).uses? uses = some (seen,
      buffer) ∧ Queue.Transitions capacity [] uses seen queue ∧ buffer.Holds queue := by
  rcases wellFormed_empty.uses? positive uses with
    ⟨seen, buffer, used, wellFormed, transitions⟩
  rw [toList_of_size_eq_zero rfl] at transitions
  exact ⟨seen, buffer, buffer.toList, used, transitions, wellFormed.holds positive⟩

/-- A ring of three cells wraps when a mark of two bytes is released a second time, and
then offers one cell of its two free ones. -/
theorem wrapped_refines_queue :
    let uses : List Use :=
      [.stage [1, 2, 3, 4], .walk 2, .release ⟨2⟩, .receive [5, 6], .release ⟨2⟩,
        .receive [7, 8], .walk 9]
    0 < 3 ∧ ∃ seen buffer queue, (empty : StagingBuffer 3).uses? uses =
        some (seen, buffer) ∧
      Queue.Transitions 3 [] uses seen queue ∧ buffer.Holds queue ∧
      seen = [.staged (some .stagingFull), .walked [1, 2] ⟨2⟩, .released, .received 2 2,
        .released, .received 1 1, .walked [6, 7] ⟨2⟩] := by
  intro uses
  have positive : 0 < 3 := by decide
  rcases refines_bounded_queue positive uses with
    ⟨seen, buffer, queue, used, transitions, holds⟩
  have isSeen : ((empty : StagingBuffer 3).uses? uses).map Prod.fst = some
      [.staged (some .stagingFull), .walked [1, 2] ⟨2⟩, .released, .received 2 2,
        .released, .received 1 1, .walked [6, 7] ⟨2⟩] := by decide +kernel
  rw [used, Option.map_some, Option.some.injEq] at isSeen
  exact ⟨positive, seen, buffer, queue, used, transitions, holds, isSeen⟩

end TriggerBench.StagingBuffer
