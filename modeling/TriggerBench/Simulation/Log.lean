namespace TriggerBench.Simulation.Log

variable {Event : Type}

def joinTo (join? : Event → Event → Option Event) (event : Event) :
    List Event → List Event
  | [] => [event]
  | next :: later =>
      match join? event next with
      | some joined => joined :: later
      | none => event :: next :: later

def joined (join? : Event → Event → Option Event) (log : List Event) : List Event :=
  log.foldr (joinTo join?) []

end TriggerBench.Simulation.Log
