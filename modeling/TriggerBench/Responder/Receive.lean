import TriggerBench.Responder

/-! Bytes are read until the staged ones hold a unit. A staging buffer that fills up
without holding one is emptied, and its contents are given up. -/

namespace TriggerBench

inductive Received
  | frame (frame : Frame)
  | dropped (reason : Rejection)
  deriving DecidableEq, Repr

def Verdict.received? : Verdict → Option Received
  | .skipped => none
  | .rejected reason => some (.dropped reason)
  | .frame decoded => some (.frame decoded)

namespace Link

variable {capacity : Nat} {World : Type}

def release (count : Nat) : Activity (Link capacity World) Unit := do
  let link ← get
  match link.staged.release? ⟨count⟩ with
  | some staged => set { link with staged }
  | none => throw (.stopped (.fault .noPosition))

def refill (port : Port World) : Activity (Link capacity World) Unit := do
  let link ← get
  match link.staged.room? with
  | none => throw (.stopped (.fault .noPosition))
  | some region =>
      match ← worldComponent.lift (Activity.ofAction (port.read region.length)) with
      | none => throw (.failed (.port .read))
      | some [] => throw (.failed .endOfStream)
      | some (byte :: rest) =>
          modify fun link =>
            { link with
              staged := (link.staged.fill region (byte :: rest)).claim (rest.length + 1) }

end Link

namespace Responder

variable {capacity : Nat} {World : Type}

/-- One turn of receiving: uses up a unit, gives up a full buffer, or reads. Nothing to
hand on means another turn. -/
def turn (responder : Responder World) (port : Port World) :
    Activity (Link capacity World) (Option Received) := do
  let link ← get
  match responder.examine link.staged.toList with
  | some examined =>
      Link.release examined.released
      pure examined.verdict.received?
  | none =>
      if link.staged.isFull then
        set { link with staged := link.staged.discard }
        pure (some (.dropped .overflow))
      else
        Link.refill port
        pure none

def receiveWithin (responder : Responder World) (port : Port World) :
    (turns : Nat) → Activity (Link capacity World) Received
  | 0 => throw (.stopped .outOfTurns)
  | turns + 1 => do
      match ← responder.turn port with
      | some received => pure received
      | none => responder.receiveWithin port turns

end Responder

/-- The turns after which receiving has come to a result: each staged or supplied byte may
be a stray delimiter, each supplied byte may take a read of its own, and one turn hands on
the result. -/
def Link.turnBudget {capacity : Nat} {World : Type} (port : Port World)
    (link : Link capacity World) : Nat :=
  link.staged.size + 2 * port.supply link.world + 1

def Responder.receive {capacity : Nat} {World : Type} (responder : Responder World)
    (port : Port World) : Activity (Link capacity World) Received := do
  let link ← get
  responder.receiveWithin port (link.turnBudget port)

end TriggerBench
