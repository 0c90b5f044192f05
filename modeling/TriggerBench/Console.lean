import TriggerBench.Port

/-! A console shows one character at a time and keeps its failures to itself. -/

namespace TriggerBench

structure Console (World : Type) where
  put : UInt8 → Action World Unit

namespace Console

variable {World Whole : Type}

def ofWriter (writer : Writer World) : Console World where
  put byte := do
    let _ ← writer.writeAll [byte]

def within (component : Component Whole World) (console : Console World) :
    Console Whole where
  put byte := component.lift (console.put byte)

def putAll (console : Console World) : List UInt8 → Action World Unit
  | [] => pure ()
  | byte :: rest => do
      console.put byte
      console.putAll rest

end Console

structure Printer (World : Type) where
  console : Console World
  enabled : Bool

def Printer.print {World : Type} (printer : Printer World) (message : List UInt8) :
    Action World Unit :=
  if printer.enabled then printer.console.putAll (message.takeWhile (· != 0)) else pure ()

end TriggerBench
