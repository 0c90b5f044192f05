import TriggerBench.Responder.Answer

namespace TriggerBench.Responder

variable {capacity : Nat} {World : Type}

def serveOne (responder : Responder World) (port : Port World) :
    Activity (Link capacity World) Outcome := do
  let received ← responder.receive port
  Link.worldComponent.lift (responder.answer port received)

def serveWithin (responder : Responder World) (port : Port World) :
    (frames : Nat) → Link capacity World → Stop × Link capacity World
  | 0, link => (.outOfTurns, link)
  | frames + 1, link =>
      match responder.serveOne port link with
      | .ok _ after => responder.serveWithin port frames after
      | .error (.failed _) after => responder.serveWithin port frames after
      | .error (.stopped stop) after => (stop, after)

/-- Serves frames until it is stopped. Each frame uses up a staged byte or some of what
the port supplies. -/
def serve (responder : Responder World) (port : Port World) (link : Link capacity World) :
    Stop × Link capacity World :=
  responder.serveWithin port (link.staged.size + port.supply link.world + 1) link

end TriggerBench.Responder
