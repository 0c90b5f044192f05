import TriggerBench.Session.Logged
import TriggerBench.Simulation.Bench
import TriggerBench.Simulation.Sink

/-! Messages go through a printer that owns its console or borrows one. -/

namespace TriggerBench.Session.Printing

open Simulation

inductive Holding
  | owned
  /-- Somebody else: every character reaches the console where it is. -/
  | borrowed
  deriving DecidableEq, Repr

structure Desk (World : Type) where
  device : World

def Desk.component {World : Type} : Component (Desk World) World where
  get desk := desk.device
  set device _ := { device }

def print {World : Type} (holding : Holding) (console : Console World) (enabled : Bool)
    (message : List UInt8) : Action (Desk World) Unit :=
  match holding with
  | .owned => Desk.component.lift (Printer.print { console, enabled } message)
  | .borrowed =>
      Printer.print { console := console.within Desk.component, enabled } message

def run (holding : Holding) (enabled : Bool) (bench : Bench Unit)
    (messages : List (List UInt8)) : List (Logged Event (Except Stop Unit)) :=
  let drain (desk : Desk (Bench Unit)) : List Event × Desk (Bench Unit) :=
    match desk.device.drain with
    | (log, device) => (log, { device })
  answers (fun message desk => observe drain (print holding Bench.console enabled message)
    desk) messages { device := bench }

/-- Prints messages in turn into a row of bytes of fixed length: what the row holds at the
end. -/
def runOnSink (enabled : Bool) (room : Nat) (messages : List (List UInt8)) : List UInt8 :=
  let printer : Printer Sink := { console := .ofWriter Sink.writer, enabled }
  (messages.foldl (fun sink message => (ending (printer.print message) sink).2)
    (Sink.ofRoom room)).cells

end TriggerBench.Session.Printing
