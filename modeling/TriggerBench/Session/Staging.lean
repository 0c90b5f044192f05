import TriggerBench.Session.Logged
import TriggerBench.StagingBuffer

/-! Each step on a staging buffer is answered by what it came to and by the state after
it. Marks of cursors are kept by name and can be released more than once. -/

namespace TriggerBench.Session.Staging

inductive Step
  | stage (data : List UInt8)
  | room
  | receive (data : List UInt8)
  | claim (count : Nat)
  | take (count : Nat) (slot : String)
  | release (slot : String)
  | discard
  deriving DecidableEq, Repr

inductive Result
  | done
  | refused (violation : Violation)
  | room (bytes : List UInt8)
  | received (count : Nat)
  | taken (bytes : List UInt8) (mark : StagingBuffer.Mark)
  | fault
  deriving DecidableEq, Repr

structure Answer where
  result : Result
  content : List UInt8
  size : Nat
  capacity : Nat
  isEmpty : Bool
  isFull : Bool
  deriving DecidableEq, Repr

structure State (capacity : Nat) where
  buffer : StagingBuffer capacity
  marks : List (String × StagingBuffer.Mark)

variable {capacity : Nat}

def State.step (state : State capacity) : Step → Result × State capacity
  | .stage data =>
      match state.buffer.stage data with
      | (buffer, none) => (.done, { state with buffer })
      | (buffer, some violation) => (.refused violation, { state with buffer })
  | .room =>
      match state.buffer.room? with
      | some region => (.room (state.buffer.contents region), state)
      | none => (.fault, state)
  | .receive data =>
      match state.buffer.receive? data with
      | some (buffer, count) => (.received count, { state with buffer })
      | none => (.fault, state)
  | .claim count => (.done, { state with buffer := state.buffer.claim count })
  | .take count slot =>
      let (bytes, cursor) := state.buffer.cursor.take count
      (.taken bytes cursor.mark,
        { state with marks := (slot, cursor.mark) :: state.marks })
  | .release slot =>
      match state.buffer.release? ((state.marks.lookup slot).getD ⟨0⟩) with
      | some buffer => (.done, { state with buffer })
      | none => (.fault, state)
  | .discard => (.done, { state with buffer := state.buffer.discard })

def take (step : Step) (state : State capacity) : Answer × State capacity :=
  match state.step step with
  | (result, after) =>
      ({ result
         content := after.buffer.toList
         size := after.buffer.size
         capacity
         isEmpty := after.buffer.isEmpty
         isFull := after.buffer.isFull }, after)

def run (capacity : Nat) (steps : List Step) : List Answer :=
  answers take steps ({ buffer := .empty, marks := [] } : State capacity)

end TriggerBench.Session.Staging
