import TriggerBench.Proofs.Polls
import TriggerBench.Session.TriggerUse

/-! # Pulses of the trigger line

Whichever way a use of the line ends, and whichever of its calls fail, it makes one pulse:
it raises the line once and lowers it once. What the user is told follows from how those
two calls went and from the way in which the use ended.
-/

namespace TriggerBench

variable {World : Type}

inductive PinCall
  | high (driven : Bool)
  | low (driven : Bool)
  deriving DecidableEq, Repr

namespace Pin

structure Notes (pin : Pin World) (calls : World → List PinCall) : Prop where
  high : ∀ world, calls (pin.setHigh world).2 =
    calls world ++ [.high (pin.setHigh world).1]
  low : ∀ world, calls (pin.setLow world).2 = calls world ++ [.low (pin.setLow world).1]

/-- Whether a line is low behind each call that lowers it and goes well. Calls that fail
may leave it either way. -/
def Lowers (pin : Pin World) (isHigh : World → Bool) : Prop :=
  ∀ world, (pin.setLow world).1 = true → isHigh (pin.setLow world).2 = false

end Pin

structure Pulse where
  raised : Bool
  lowered : Bool
  deriving DecidableEq, Repr

def Pulse.calls (pulse : Pulse) : List PinCall :=
  [.high pulse.raised, .low pulse.lowered]

namespace Session.TriggerUse

def outcome (ending : Ending) (pulse : Pulse) : Except Stop Window :=
  if pulse.raised then
    match ending with
    | .close => .ok (.closed pulse.lowered)
    | .abandon => .ok .abandoned
    | .fault => .error (.fault .workload)
  else .ok .refused

structure Use (World : Type) where
  meanwhile : World → World
  ending : Ending

namespace Use

def inside (use : Use World) : Action World Unit := fun world =>
  match use.ending with
  | .close | .abandon => .ok () (use.meanwhile world)
  | .fault => .error (.fault .workload) (use.meanwhile world)

def perform (pin : Pin World) (use : Use World) : Action World Window :=
  match use.ending with
  | .close | .fault => pin.around use.inside
  | .abandon => pin.aroundUnasked use.inside

example (pin : Pin World) (ending : Ending) :
    perform pin { meanwhile := id, ending } = TriggerUse.use pin ending := by
  cases ending <;> rfl

def performAll (pin : Pin World) :
    List (Use World) → World → List (Except Stop Window) × World
  | [], world => ([], world)
  | use :: rest, world =>
      match Session.ending (use.perform pin) world with
      | (first, after) =>
          match performAll pin rest after with
          | (later, final) => (first :: later, final)

def opened (pin : Pin World) (use : Use World) (world : World) : World :=
  match pin.setHigh world with
  | (true, raised) => use.meanwhile raised
  | (false, failed) => failed

def pulse (pin : Pin World) (use : Use World) (world : World) : Pulse where
  raised := (pin.setHigh world).1
  lowered := (pin.setLow (use.opened pin world)).1

private theorem ending_perform (pin : Pin World) (use : Use World) (world : World) :
    Session.ending (use.perform pin) world =
      (outcome use.ending (use.pulse pin world),
        (pin.setLow (use.opened pin world)).2) := by
  rcases raises : pin.setHigh world with ⟨_ | _, after⟩
  · cases how : use.ending <;>
      simp [Session.ending, perform, how, Pin.around, Pin.aroundUnasked, Pin.window,
        Pin.raise, raises, outcome, pulse, opened]
  · cases how : use.ending <;>
      simp [Session.ending, perform, how, Pin.around, Pin.aroundUnasked, Pin.window,
        Pin.raise, Pin.drop, raises, outcome, pulse, opened, inside]

def pulses (pin : Pin World) : List (Use World) → World → List Pulse
  | [], _ => []
  | use :: rest, world =>
      use.pulse pin world :: pulses pin rest (Session.ending (use.perform pin) world).2

private theorem length_pulses (pin : Pin World) (uses : List (Use World))
    (world : World) :
    (pulses pin uses world).length = uses.length := by
  induction uses generalizing world with
  | nil => rfl
  | cons use rest induction => rw [pulses, List.length_cons, induction, List.length_cons]

private theorem outcomes_performAll (pin : Pin World) (uses : List (Use World))
    (world : World) :
    (performAll pin uses world).1 = List.zipWith outcome (uses.map Use.ending)
      (pulses pin uses world) := by
  induction uses generalizing world with
  | nil => rfl
  | cons use rest induction =>
      rw [performAll, pulses, List.map_cons, List.zipWith_cons_cons,
        ← induction, ending_perform]

section Noting

variable {pin : Pin World} {calls : World → List PinCall} (notes : pin.Notes calls)
include notes

private theorem calls_opened {use : Use World}
    (aside : ∀ world, calls (use.meanwhile world) = calls world) (world : World) :
    calls (use.opened pin world) = calls world ++ [.high (pin.setHigh world).1] := by
  have noted := notes.high world
  rw [opened]
  rcases raises : pin.setHigh world with ⟨_ | _, after⟩
  · rw [raises] at noted
    exact noted
  · rw [raises] at noted
    exact (aside after).trans noted

private theorem calls_perform {use : Use World}
    (aside : ∀ world, calls (use.meanwhile world) = calls world) (world : World) :
    calls (Session.ending (use.perform pin) world).2 =
      calls world ++ (use.pulse pin world).calls := by
  rw [ending_perform]
  calc calls (pin.setLow (use.opened pin world)).2
      = calls (use.opened pin world) ++ [.low (use.pulse pin world).lowered] :=
        notes.low _
    _ = calls world ++ (use.pulse pin world).calls := by
      rw [calls_opened notes aside, List.append_assoc]
      rfl

private theorem calls_performAll {uses : List (Use World)}
    (aside : ∀ use ∈ uses, ∀ world, calls (use.meanwhile world) = calls world)
    (world : World) :
    calls (performAll pin uses world).2 =
      calls world ++ (pulses pin uses world).flatMap Pulse.calls := by
  induction uses generalizing world with
  | nil => exact (List.append_nil _).symm
  | cons use rest induction =>
      rw [List.forall_mem_cons] at aside
      have first := calls_perform notes aside.1 world
      rw [pulses, List.flatMap_cons, ← List.append_assoc, ← first, ← induction aside.2]
      rfl

end Noting

/-- Behind one or more uses, the line can only be high if the last call that should have
lowered it failed. -/
theorem lowered_of_isHigh {pin : Pin World} {isHigh : World → Bool}
    (lowers : pin.Lowers isHigh) {uses : List (Use World)} {world : World}
    (high : isHigh (performAll pin uses world).2 = true) :
    (uses = [] ∧ isHigh world = true) ∨
      ∃ last, (pulses pin uses world).getLast? = some last ∧ last.lowered = false := by
  induction uses generalizing world with
  | nil => exact .inl ⟨rfl, high⟩
  | cons use rest induction =>
      right
      let after := (Session.ending (use.perform pin) world).2
      have behind : (rest = [] ∧ isHigh after = true) ∨
          ∃ last, (pulses pin rest after).getLast? = some last ∧
          last.lowered = false := induction high
      -- Either no use follows, so that the line is as this use left it, or the last one
      -- of those that follow decides.
      rcases behind with ⟨rfl, stillHigh⟩ | ⟨last, isLast, failed⟩
      · have isAfter : after = (pin.setLow (use.opened pin world)).2 :=
          congrArg Prod.snd (ending_perform pin use world)
        refine ⟨use.pulse pin world, rfl, Bool.eq_false_iff.mpr fun lowered => ?_⟩
        rw [isAfter, lowers _ lowered] at stillHigh
        cases stillHigh
      · refine ⟨last, ?_, failed⟩
        rw [pulses, List.getLast?_cons, isLast, Option.getD_some]

/-- Each use raises the line once and lowers it once, and whether the one failed and, if
it is asked for, whether the other failed is what the user is told. -/
theorem uses_lower_once {pin : Pin World} {calls : World → List PinCall}
    {isHigh : World → Bool} (notes : pin.Notes calls) (lowers : pin.Lowers isHigh)
    {uses : List (Use World)}
    (aside : ∀ use ∈ uses, ∀ world, calls (use.meanwhile world) = calls world)
    (world : World) :
    ∃ pulses : List Pulse, pulses.length = uses.length ∧
      calls (performAll pin uses world).2 = calls world ++ pulses.flatMap Pulse.calls ∧
      (performAll pin uses world).1 = List.zipWith outcome (uses.map Use.ending) pulses ∧
      (isHigh (performAll pin uses world).2 = true →
        (uses = [] ∧ isHigh world = true) ∨ ∃ last, pulses.getLast? = some last ∧
        last.lowered = false) := by
  refine ⟨pulses pin uses world, length_pulses pin uses world, ?_, ?_, ?_⟩
  · exact calls_performAll notes aside world
  · exact outcomes_performAll pin uses world
  · exact lowered_of_isHigh lowers

end Use

end Session.TriggerUse

/-! ## A bench -/

namespace Simulation.Bench

open Session.TriggerUse

def pinCall? : Event → Option PinCall
  | .high driven => some (.high driven)
  | .low driven => some (.low driven)
  | _ => none

def pinCalls (bench : Bench Unit) : List PinCall :=
  bench.log.filterMap pinCall?

def levelAfter (high : Bool) : PinCall → Bool
  | .high driven => high || driven
  | .low driven => high && !driven

def isHigh (bench : Bench Unit) : Bool :=
  bench.pinCalls.foldl levelAfter false

private theorem pin_notes : pin.Notes pinCalls where
  high _ := List.filterMap_append
  low _ := List.filterMap_append

private theorem pin_lowers : pin.Lowers isHigh := by
  intro bench lowered
  rw [isHigh, pin_notes.low bench, List.foldl_append, lowered]
  exact Bool.and_false _

/-- A bench on which the line fails to rise the second time, and can be lowered that time
only. -/
def ofStubbornPin : Bench Unit :=
  { plain with raising := .ofFailures (· == 1), lowering := .ofFailures (· != 1) }

/-- The line is closed, found stuck, left without asking, and left by a fault, and is high
in the end. -/
theorem ofStubbornPin_lowered_once :
    let uses := [.close, .close, .abandon, .fault].map fun ending =>
      Use.mk (·.record .executed) ending
    let after := Use.performAll pin uses ofStubbornPin
    pin.Notes pinCalls ∧ pin.Lowers isHigh ∧
      (∀ use ∈ uses, ∀ bench, pinCalls (use.meanwhile bench) = pinCalls bench) ∧
      after.1 = [.ok (.closed false), .ok .refused, .ok .abandoned,
        .error (.fault .workload)] ∧ isHigh after.2 = true ∧ ∃ pulses : List Pulse,
        pulses.length = 4 ∧ pinCalls after.2 = pulses.flatMap Pulse.calls ∧
        after.1 = List.zipWith outcome [.close, .close, .abandon, .fault] pulses ∧
        ∃ last, pulses.getLast? = some last ∧ last.lowered = false := by
  intro uses after
  have aside : ∀ use ∈ uses, ∀ bench,
      pinCalls (use.meanwhile bench) = pinCalls bench := by
    intro use member bench
    rcases List.mem_map.mp member with ⟨_, _, rfl⟩
    simp [pinCalls, pinCall?, record]
  have high : isHigh after.2 = true := by decide +kernel
  rcases Use.uses_lower_once pin_notes pin_lowers aside ofStubbornPin with
    ⟨pulses, count, noted, outcomes, lastFailed⟩
  have failed := (lastFailed high).resolve_left fun nothing =>
    List.cons_ne_nil _ _ nothing.1
  exact ⟨pin_notes, pin_lowers, aside, rfl, high, pulses, count, noted, outcomes, failed⟩

end Simulation.Bench

end TriggerBench
