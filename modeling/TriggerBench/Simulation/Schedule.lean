import TriggerBench.Action

/-! A simulated device fails in calls that are chosen beforehand by their number. -/

namespace TriggerBench.Simulation

structure Schedule where
  calls : Nat
  fails : Nat → Bool

namespace Schedule

def ofFailures (fails : Nat → Bool) : Schedule where
  calls := 0
  fails := fails

def call (schedule : Schedule) : Bool × Schedule :=
  (!schedule.fails schedule.calls, { schedule with calls := schedule.calls + 1 })

end Schedule

structure Workload where
  executions : Schedule

def Workload.execute (workload : Workload) : Bool × Workload :=
  match workload.executions.call with
  | (completes, executions) => (completes, { executions })

end TriggerBench.Simulation
