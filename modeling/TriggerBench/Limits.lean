namespace TriggerBench

def maxCommands : Nat := 16

def maxPayload : Nat := 64

/-- The longest frame: a command, two digits for each byte, a terminator. -/
def frameCapacity : Nat := 2 * maxPayload + 2

example : frameCapacity = 130 := rfl

end TriggerBench
