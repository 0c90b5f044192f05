import TriggerBench.Rig
import TriggerBench.Simulation.Line
import TriggerBench.Simulation.Log

/-! A bench is a world with a serial line, a console, a trigger pin and a workload, all of
which fail when they are told to. What is done to it goes to one chronological log. -/

namespace TriggerBench.Simulation

inductive Event
  /-- The port was asked for so many bytes, and delivered some or failed. -/
  | read (wanted : Nat) (delivered : Option Nat)
  | sent (bytes : List UInt8)
  | sendFailed
  | flushed (done : Bool)
  | shown (bytes : List UInt8)
  | showFailed
  | high (driven : Bool)
  | low (driven : Bool)
  | executed
  | platformPrepared
  | serialStarted
  | triggerSetUp
  /-- A scripted handler was called; for each reply that it tried to queue, whether it was
  accepted. -/
  | called (name : Nat) (request : Request) (sends : List Bool)
  deriving DecidableEq, Repr

namespace Event

def join? : Event → Event → Option Event
  | .sent first, .sent second => some (.sent (first ++ second))
  | .shown first, .shown second => some (.shown (first ++ second))
  | _, _ => none

end Event

structure Display where
  /-- Whether characters go through a writer instead of being shown directly. -/
  throughWriter : Bool
  budget : Option Nat
  accepted : Nat

def Display.isFull (display : Display) : Bool :=
  match display.budget with
  | none => false
  | some budget => budget ≤ display.accepted

structure Bench (Memory : Type) where
  line : Line
  display : Display
  raising : Schedule
  lowering : Schedule
  workload : Workload
  memory : Memory
  log : List Event

namespace Bench

variable {Memory : Type}

def record (bench : Bench Memory) (event : Event) : Bench Memory :=
  { bench with log := bench.log ++ [event] }

def drain (bench : Bench Memory) : List Event × Bench Memory :=
  (Log.joined Event.join? bench.log, { bench with log := [] })

def feed (bench : Bench Memory) (deliveries : List Delivery) : Bench Memory :=
  { bench with line := bench.line.feed deliveries }

def setEndless (endless : Bool) (bench : Bench Memory) : Bench Memory :=
  { bench with line := { bench.line with endless } }

def readLine (wanted : Nat) : Action (Bench Memory) (Option (List UInt8)) := fun bench =>
  match bench.line.read wanted with
  | (.waiting, _) => .error .endlessWait bench
  | (.failed, line) => .ok none ({ bench with line }.record (.read wanted none))
  | (.delivered bytes, line) =>
      .ok (some bytes) ({ bench with line }.record (.read wanted (some bytes.length)))

def writeLine (bytes : List UInt8) : Action (Bench Memory) (Option Nat) := fun bench =>
  match bench.line.write bytes with
  | (none, line) => .ok none ({ bench with line }.record .sendFailed)
  | (some count, line) =>
      .ok (some count) ({ bench with line }.record (.sent (bytes.take count)))

def flushLine : Action (Bench Memory) Bool := fun bench =>
  match bench.line.flush with
  | (done, line) => .ok done ({ bench with line }.record (.flushed done))

def port : Port (Bench Memory) where
  read := readLine
  write := writeLine
  flush := flushLine
  supply bench := bench.line.supply

def displayWriter : Writer (Bench Memory) where
  write bytes := fun bench =>
    if bench.display.isFull then .ok none (bench.record .showFailed)
    else
      let room :=
        (bench.display.budget.map (· - bench.display.accepted)).getD bytes.length
      let count := min bytes.length room
      .ok (some count)
        ({ bench with display := { bench.display with
          accepted := bench.display.accepted + count } }.record
          (.shown (bytes.take count)))

def directConsole : Console (Bench Memory) where
  put byte := fun bench => .ok () (bench.record (.shown [byte]))

def console : Console (Bench Memory) where
  put byte := fun bench =>
    if bench.display.throughWriter then (Console.ofWriter displayWriter).put byte bench
    else directConsole.put byte bench

def pin : Pin (Bench Memory) where
  setHigh bench :=
    match bench.raising.call with
    | (driven, raising) => (driven, { bench with raising }.record (.high driven))
  setLow bench :=
    match bench.lowering.call with
    | (driven, lowering) => (driven, { bench with lowering }.record (.low driven))

def execute : Action (Bench Memory) Unit := fun bench =>
  match bench.workload.execute with
  | (true, workload) => .ok () ({ bench with workload }.record .executed)
  | (false, workload) =>
      .error (.fault .workload) ({ bench with workload }.record .executed)

def trace (event : Event) : Action (Bench Memory) Unit := fun bench =>
  .ok () (bench.record event)

def board : Board (Bench Memory) where
  preparePlatform := trace .platformPrepared
  startSerial := trace .serialStarted
  setUpTrigger := trace .triggerSetUp
  port := port
  console := console
  pin := pin

end Bench

end TriggerBench.Simulation
