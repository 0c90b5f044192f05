import TriggerBench.Rejection

/-! Received bytes wait in a ring of fixed capacity until they form a frame. A cursor
walks them from the oldest, and what it has walked over is released. Positions wrap at
the end of the ring, so a ring without cells has no positions at all. -/

namespace TriggerBench

/-- A ring of `capacity` cells, of which `size` cells from `start` on hold staged
bytes. -/
structure StagingBuffer (capacity : Nat) where
  cells : Vector UInt8 capacity
  start : Nat
  size : Nat
  deriving DecidableEq, Repr

namespace StagingBuffer

variable {capacity : Nat}

def empty : StagingBuffer capacity where
  cells := Vector.replicate capacity 0
  start := 0
  size := 0

def isEmpty (buffer : StagingBuffer capacity) : Bool :=
  buffer.size == 0

def isFull (buffer : StagingBuffer capacity) : Bool :=
  buffer.size == capacity

def cell? (capacity position : Nat) : Option (Fin capacity) :=
  if positive : 0 < capacity then
    some ⟨position % capacity, Nat.mod_lt _ positive⟩ else none

def byteAt? (buffer : StagingBuffer capacity) (offset : Nat) : Option UInt8 :=
  (cell? capacity (buffer.start + offset)).map fun cell => buffer.cells[cell]

def toList (buffer : StagingBuffer capacity) : List UInt8 :=
  (List.range buffer.size).filterMap buffer.byteAt?

def end? (buffer : StagingBuffer capacity) : Option (Fin capacity) :=
  cell? capacity (buffer.start + buffer.size)

def stageAt (buffer : StagingBuffer capacity) (cell : Fin capacity) (byte : UInt8) :
    StagingBuffer capacity :=
  { buffer with cells := buffer.cells.set cell byte, size := buffer.size + 1 }

def stage (buffer : StagingBuffer capacity) :
    List UInt8 → StagingBuffer capacity × Option Violation
  | [] => (buffer, none)
  | byte :: rest =>
      if buffer.isFull then (buffer, some .stagingFull)
      else
        match buffer.end? with
        | some cell => (buffer.stageAt cell byte).stage rest
        | none => (buffer, some .stagingFull)

structure Region where
  first : Nat
  stop : Nat
  deriving DecidableEq, Repr

def Region.length (region : Region) : Nat :=
  region.stop - region.first

/-- The free cells behind the staged bytes up to the first staged one or the end of the
ring. It may be shorter than all the free space, and it is empty when the buffer is
full. -/
def room? (buffer : StagingBuffer capacity) : Option Region :=
  buffer.end?.map fun cell =>
    { first := cell.val
      stop :=
        if buffer.isFull then cell.val
        else if buffer.start ≤ cell.val then capacity
        else buffer.start }

def contents (buffer : StagingBuffer capacity) (region : Region) : List UInt8 :=
  (buffer.cells.toList.drop region.first).take region.length

def overwrite (cells : Vector UInt8 capacity) (position : Nat) :
    List UInt8 → Vector UInt8 capacity
  | [] => cells
  | byte :: rest => overwrite (cells.setIfInBounds position byte) (position + 1) rest

def fill (buffer : StagingBuffer capacity) (region : Region) (bytes : List UInt8) :
    StagingBuffer capacity :=
  { buffer with cells := overwrite buffer.cells region.first (bytes.take region.length) }

def claim (buffer : StagingBuffer capacity) (count : Nat) : StagingBuffer capacity :=
  { buffer with size := min (buffer.size + count) capacity }

def receive? (buffer : StagingBuffer capacity) (bytes : List UInt8) :
    Option (StagingBuffer capacity × Nat) :=
  buffer.room?.map fun region =>
    let count := min region.length bytes.length
    ((buffer.fill region bytes).claim count, count)

structure Mark where
  count : Nat
  deriving DecidableEq, Repr

def release? (buffer : StagingBuffer capacity) (mark : Mark) :
    Option (StagingBuffer capacity) :=
  let count := min mark.count buffer.size
  (cell? capacity (buffer.start + count)).map fun cell =>
    { buffer with start := cell.val, size := buffer.size - count }

def discard (buffer : StagingBuffer capacity) : StagingBuffer capacity :=
  { buffer with start := 0, size := 0 }

structure Cursor (capacity : Nat) where
  buffer : StagingBuffer capacity
  walked : Nat

def cursor (buffer : StagingBuffer capacity) : Cursor capacity where
  buffer := buffer
  walked := 0

namespace Cursor

def next? (cursor : Cursor capacity) : Option (UInt8 × Cursor capacity) :=
  if cursor.buffer.size ≤ cursor.walked then none
  else (cursor.buffer.byteAt? cursor.walked).map fun byte =>
    (byte, { cursor with walked := cursor.walked + 1 })

def take (cursor : Cursor capacity) : Nat → List UInt8 × Cursor capacity
  | 0 => ([], cursor)
  | count + 1 =>
      match cursor.next? with
      | none => ([], cursor)
      | some (byte, behind) =>
          let (bytes, stop) := behind.take count
          (byte :: bytes, stop)

def mark (cursor : Cursor capacity) : Mark where
  count := cursor.walked

end Cursor

example :
    ((empty : StagingBuffer 3).stage [1, 2, 3, 4]).2 = some .stagingFull := by decide

example : ((empty : StagingBuffer 3).stage [1, 2, 3, 4]).1.toList = [1, 2, 3] := by decide

example :
    (((empty : StagingBuffer 3).stage [1, 2, 3]).1.release? ⟨2⟩).map (fun rest =>
      (rest.stage [4, 5]).1.toList) =
    some [3, 4, 5] := by decide

example : (empty : StagingBuffer 0).room? = none := by decide

end StagingBuffer

end TriggerBench
