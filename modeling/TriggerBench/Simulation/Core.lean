import TriggerBench.Simulation.Log
import TriggerBench.Simulation.Schedule
import TriggerBench.SoftCore.Board

/-! The registers of a simulated soft core answer from lists of values. A wait that
reads the status register too often in a row, with nothing else happening, is taken for
endless. -/

namespace TriggerBench.Simulation

inductive CoreEvent
  /-- The status register was read so many times in a row, with the same value. -/
  | status (value : UInt32) (count : Nat)
  | received (value : UInt32)
  | transmitted (value : UInt32)
  | outputRead (value : UInt32)
  | outputWritten (value : UInt32)
  | executed
  deriving DecidableEq, Repr

namespace CoreEvent

def join? : CoreEvent → CoreEvent → Option CoreEvent
  | .status first firstCount, .status second secondCount =>
      if first = second then some (.status first (firstCount + secondCount)) else none
  | _, _ => none

end CoreEvent

structure Core where
  /-- The values of the receive register, zero when there are no more. -/
  arrivals : List UInt32
  /-- The values of the status register; when there are no more, it tells whether there
  are arrivals. -/
  statuses : List UInt32
  output : UInt32
  looks : Nat
  workload : Workload
  log : List CoreEvent

namespace Core

def patience : Nat := 64

def record (core : Core) (event : CoreEvent) : Core :=
  { core with log := core.log ++ [event] }

def drain (core : Core) : List CoreEvent × Core :=
  (Log.joined CoreEvent.join? core.log, { core with log := [], looks := 0 })

def nextStatus (core : Core) : UInt32 × List UInt32 :=
  match core.statuses with
  | value :: rest => (value, rest)
  | [] => (if core.arrivals.isEmpty then SoftCore.nothingReceived else 0, [])

def readStatus : Action Core UInt32 := fun core =>
  if patience ≤ core.looks then .error .endlessWait core
  else
    match core.nextStatus with
    | (value, statuses) =>
        .ok value ({ core with statuses, looks := core.looks + 1 }.record
          (.status value 1))

def readReceived (core : Core) : UInt32 × Core :=
  let value := core.arrivals.headD 0
  (value, { core with arrivals := core.arrivals.tail, looks := 0 }.record
    (.received value))

def writeTransmit (value : UInt32) (core : Core) : Core :=
  { core with looks := 0 }.record (.transmitted value)

def readOutput (core : Core) : UInt32 × Core :=
  (core.output, { core with looks := 0 }.record (.outputRead core.output))

def writeOutput (value : UInt32) (core : Core) : Core :=
  { core with output := value, looks := 0 }.record (.outputWritten value)

/-- The registers as a bus. Each byte that is received takes up a status value or an
arrival. -/
def bus : SoftCore.Bus Core where
  readStatus := readStatus
  readReceived := readReceived
  writeTransmit := writeTransmit
  readOutput := readOutput
  writeOutput := writeOutput
  patience := patience
  supply core := core.statuses.length + core.arrivals.length

def execute : Action Core Unit := fun core =>
  match core.workload.execute with
  | (true, workload) => .ok () ({ core with workload }.record .executed)
  | (false, workload) =>
      .error (.fault .workload) ({ core with workload }.record .executed)

def board : Board Core :=
  SoftCore.board bus

end Core

end TriggerBench.Simulation
