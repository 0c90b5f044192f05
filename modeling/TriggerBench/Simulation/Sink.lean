import TriggerBench.Port

/-! A row of bytes is written from its start until no room is left. -/

namespace TriggerBench.Simulation

structure Sink where
  written : List UInt8
  rest : List UInt8
  deriving DecidableEq, Repr

namespace Sink

def ofRoom (room : Nat) : Sink where
  written := []
  rest := List.replicate room 0

def cells (sink : Sink) : List UInt8 :=
  sink.written ++ sink.rest

def writer : Writer Sink where
  write bytes := fun sink =>
    if sink.rest.isEmpty then .ok none sink
    else
      let count := min bytes.length sink.rest.length
      .ok (some count)
        { written := sink.written ++ bytes.take count, rest := sink.rest.drop count }

end Sink

end TriggerBench.Simulation
