import TriggerBench.Rig
import TriggerBench.SoftCore.Uart

/-! The trigger line is one bit of the output register; the other bits are left alone. -/

namespace TriggerBench.SoftCore

variable {World : Type}

def changeOutput (bus : Bus World) (change : UInt32 → UInt32) (world : World) : World :=
  match bus.readOutput world with
  | (value, after) => bus.writeOutput (change value) after

def pin (bus : Bus World) : Pin World where
  setHigh world := (true, changeOutput bus (· ||| triggerMask) world)
  setLow world := (true, changeOutput bus (· &&& ~~~triggerMask) world)

def console (bus : Bus World) : Console World where
  put := Uart.transmit bus

def board (bus : Bus World) : Board World where
  preparePlatform := pure ()
  startSerial := pure ()
  setUpTrigger := Action.ofStep fun world => ((), (pin bus).drop world)
  port := Uart.port bus
  console := console bus
  pin := pin bus

end TriggerBench.SoftCore
