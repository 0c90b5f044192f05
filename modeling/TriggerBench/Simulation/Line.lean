import TriggerBench.Simulation.Schedule

/-! What the line delivers is a list of portions and failures; a read never joins two of
them. What it accepts is decided call by call. -/

namespace TriggerBench.Simulation

inductive Delivery
  /-- Some bytes; without any, the read finds the end of the stream. -/
  | bytes (data : List UInt8)
  | failure
  deriving DecidableEq, Repr

def Delivery.weight : Delivery → Nat
  | bytes data => data.length + 1
  | failure => 1

/-- How many of the offered bytes a write call accepts, or nothing if it fails. -/
abbrev Acceptance := (calls accepted offered : Nat) → Option Nat

/-- Accepts at most `chunk` bytes in a call and `budget` bytes in all, and fails when the
budget is used up. -/
def Acceptance.limited (chunk budget : Option Nat) :
    Acceptance := fun _ accepted offered =>
  let portion := min offered (chunk.getD offered)
  match budget with
  | none => some portion
  | some budget =>
      if budget ≤ accepted then none else some (min portion (budget - accepted))

structure Line where
  deliveries : List Delivery
  readLimit : Option Nat
  /-- Whether a read that finds nothing left waits for ever, instead of finding the end of
  the stream. -/
  endless : Bool
  acceptance : Acceptance
  writes : Nat
  accepted : Nat
  flushes : Schedule

inductive LineRead
  | delivered (bytes : List UInt8)
  | failed
  | waiting
  deriving DecidableEq, Repr

namespace Line

def read (line : Line) (wanted : Nat) : LineRead × Line :=
  match line.deliveries with
  | [] => (if line.endless then .waiting else .delivered [], line)
  | .failure :: rest => (.failed, { line with deliveries := rest })
  | .bytes data :: rest =>
      let count := min wanted (line.readLimit.getD wanted)
      let left := data.drop count
      (.delivered (data.take count),
        { line with deliveries := if left.isEmpty then rest else .bytes left :: rest })

def write (line : Line) (bytes : List UInt8) : Option Nat × Line :=
  match line.acceptance line.writes line.accepted bytes.length with
  | none => (none, { line with writes := line.writes + 1 })
  | some count =>
      let accepted := min count bytes.length
      (some accepted,
        { line with writes := line.writes + 1, accepted := line.accepted + accepted })

def flush (line : Line) : Bool × Line :=
  match line.flushes.call with
  | (flushed, flushes) => (flushed, { line with flushes })

def feed (line : Line) (deliveries : List Delivery) : Line :=
  { line with deliveries := line.deliveries ++ deliveries }

def supply (line : Line) : Nat :=
  line.deliveries.foldr (fun delivery later => delivery.weight + later) 0

end Line

end TriggerBench.Simulation
