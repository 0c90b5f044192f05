import TriggerBench.Action

/-! The trigger line is raised and lowered once for each use: also when raising fails,
and also when what runs in between stops for good. -/

namespace TriggerBench

structure Pin (World : Type) where
  setHigh : World → Bool × World
  setLow : World → Bool × World

inductive Window
  | refused
  /-- The line was raised, and lowering it went well or not. -/
  | closed (lowered : Bool)
  /-- The line was raised and lowered, and nobody asked how the lowering went. -/
  | abandoned
  deriving DecidableEq, Repr

namespace Pin

variable {World : Type}

def raise (pin : Pin World) (world : World) : Bool × World :=
  match pin.setHigh world with
  | (true, raised) => (true, raised)
  | (false, failed) => (false, (pin.setLow failed).2)

def drop (pin : Pin World) (world : World) : World :=
  (pin.setLow world).2

/-- Runs an action while the line is high, and lowers the line with `lower` if the action
completes. -/
def window (pin : Pin World) (inside : Action World Unit)
    (lower : World → Window × World) :
    Action World Window := fun world =>
  match pin.raise world with
  | (false, refused) => .ok .refused refused
  | (true, raised) =>
      match inside raised with
      | .ok () finished =>
          match lower finished with
          | (window, lowered) => .ok window lowered
      | .error stop broken => .error stop (pin.drop broken)

def around (pin : Pin World) (inside : Action World Unit) : Action World Window :=
  pin.window inside fun world =>
    match pin.setLow world with
    | (lowered, after) => (.closed lowered, after)

def aroundUnasked (pin : Pin World) (inside : Action World Unit) : Action World Window :=
  pin.window inside fun world => (.abandoned, pin.drop world)

end Pin

end TriggerBench
