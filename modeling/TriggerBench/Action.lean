/-! An action completes with a result or stops for good; what it did to the world stays
done. -/

namespace TriggerBench

inductive Fault
  | noPosition
  /-- An index lay outside of the cells that it was meant for. -/
  | outOfCells
  /-- A port accepted none of the bytes that it was given, without failing. -/
  | stalledWrite
  | handler
  | workload
  deriving DecidableEq, Repr

inductive Stop
  | fault (cause : Fault)
  | endlessWait
  | outOfTurns
  deriving DecidableEq, Repr

abbrev Action (World Result : Type) := EStateM Stop World Result

def Action.ofStep {World Result : Type} (step : World → Result × World) :
    Action World Result := fun world =>
  match step world with
  | (result, after) => .ok result after

structure Component (Whole World : Type) where
  get : Whole → World
  set : World → Whole → Whole

def Component.lift {Whole World Reason Result : Type} (component : Component Whole World)
    (action : EStateM Reason World Result) : EStateM Reason Whole Result := fun whole =>
  match action (component.get whole) with
  | .ok result after => .ok result (component.set after whole)
  | .error reason after => .error reason (component.set after whole)

end TriggerBench
