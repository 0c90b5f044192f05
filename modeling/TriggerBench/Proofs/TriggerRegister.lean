import TriggerBench.Proofs.Footprints
import TriggerBench.Simulation.Core

/-! # The output register of the soft core

The trigger line is one bit of a register that is read, changed and written back. It is
set while the workload runs and clear whenever the serial line is touched, however a run
ends, and the other bits are written back as they were found.
-/

namespace TriggerBench

open Simulation

namespace SoftCore

variable {World : Type} {rest : UInt32}

/-! ## Masking -/

private theorem or_and (left right mask : UInt32) :
    (left ||| right) &&& mask = (left &&& mask) ||| (right &&& mask) := by
  apply UInt32.toBitVec_inj.mp
  simp only [UInt32.toBitVec_and, UInt32.toBitVec_or]
  ext index inWidth
  simp only [BitVec.getElem_and, BitVec.getElem_or, Bool.and_or_distrib_right]

def IsLow (rest : UInt32) : Prop :=
  rest &&& ~~~triggerMask = rest

private theorem isLow_cleared (value : UInt32) : IsLow (value &&& ~~~triggerMask) := by
  rw [IsLow, UInt32.and_assoc, UInt32.and_self]

private theorem IsLow.trigger_clear (low : IsLow rest) : rest &&& triggerMask = 0 := by
  rw [← low, UInt32.and_assoc, UInt32.not_and_self, UInt32.and_zero]

private theorem IsLow.trigger_set (low : IsLow rest) :
    (rest ||| triggerMask) &&& triggerMask = triggerMask := by
  rw [or_and, low.trigger_clear, UInt32.and_self, UInt32.zero_or]

private theorem IsLow.clear_set (low : IsLow rest) :
    (rest ||| triggerMask) &&& ~~~triggerMask = rest := by
  rw [or_and, low, UInt32.and_not_self, UInt32.or_zero]

/-! ## Walks through a log -/

def outputAfter (held : UInt32) : CoreEvent → UInt32
  | .outputWritten value => value
  | _ => held

/-- Whether an event may happen while the output register holds a value. The bits that do
not belong to the trigger line are to stay as they are in `rest`. -/
def Permitted (rest held : UInt32) : CoreEvent → Prop
  | .status _ _ | .received _ | .transmitted _ => held &&& triggerMask = 0
  | .executed => held &&& triggerMask = triggerMask
  | .outputRead value => value = held
  | .outputWritten value => value &&& ~~~triggerMask = rest

inductive Walk (rest : UInt32) : UInt32 → List CoreEvent → UInt32 → Prop
  | nil {held} : Walk rest held [] held
  | cons {held event later last} (permitted : Permitted rest held event)
      (behind : Walk rest (outputAfter held event) later last) :
      Walk rest held (event :: later) last

namespace Walk

variable {first middle last : UInt32} {events more : List CoreEvent}

theorem append (before : Walk rest first events middle)
    (behind : Walk rest middle more last) :
    Walk rest first (events ++ more) last := by
  induction before with
  | nil => exact behind
  | cons permitted _ induction => exact .cons permitted (induction behind)

private theorem last_eq (walk : Walk rest first events last) :
    events.foldl outputAfter first = last := by
  induction walk with
  | nil => rfl
  | cons _ _ induction => exact induction

def IsSerial : CoreEvent → Prop
  | .status _ _ | .received _ | .transmitted _ => True
  | _ => False

private theorem of_serial (low : IsLow rest)
    (areSerial : ∀ event ∈ events, IsSerial event) : Walk rest rest events rest := by
  induction events with
  | nil => exact .nil
  | cons event later induction =>
      have behind :=
        induction fun other member => areSerial other (List.mem_cons_of_mem event member)
      have isSerial := areSerial event List.mem_cons_self
      cases event with
      | status _ _ => exact .cons low.trigger_clear behind
      | received _ => exact .cons low.trigger_clear behind
      | transmitted _ => exact .cons low.trigger_clear behind
      | outputRead _ => cases isSerial
      | outputWritten _ => cases isSerial
      | executed => cases isSerial

end Walk

/-! ## Watched registers -/

structure Watch (World : Type) where
  output : World → UInt32
  log : World → List CoreEvent

namespace Watch

variable {watch : Watch World}

structure Sees (watch : Watch World) (events : List CoreEvent)
    (before after : World) : Prop where
  held : watch.output after = events.foldl outputAfter (watch.output before)
  logged : watch.log after = watch.log before ++ events

/-- A bus of which every access is seen, and that has an output register which holds what
was last written to it. -/
structure Sights (watch : Watch World) (bus : Bus World) : Prop where
  readStatus : ∀ world, ∃ looks : List (UInt32 × Nat),
    watch.Sees (looks.map fun look => .status look.1 look.2) world
      (Session.ending bus.readStatus world).2
  readReceived : ∀ world, ∃ value,
    watch.Sees [.received value] world (bus.readReceived world).2
  writeTransmit : ∀ value world,
    watch.Sees [.transmitted value] world (bus.writeTransmit value world)
  readOutput : ∀ world, (bus.readOutput world).1 = watch.output world ∧
    watch.Sees [.outputRead (watch.output world)] world (bus.readOutput world).2
  writeOutput : ∀ value world,
    watch.Sees [.outputWritten value] world (bus.writeOutput value world)

def Executes (watch : Watch World) (workload : Action World Unit) : Prop :=
  ∀ world, watch.Sees [.executed] world (Session.ending workload world).2

theorem Sees.trans {first second third : World} {events more : List CoreEvent}
    (before : watch.Sees events first second) (behind : watch.Sees more second third) :
    watch.Sees (events ++ more) first third where
  held := by rw [behind.held, before.held, List.foldl_append]
  logged := by rw [behind.logged, before.logged, List.append_assoc]

def Rests (watch : Watch World) (rest : UInt32) (before after : World) : Prop :=
  watch.output before = rest → ∃ events, watch.Sees events before after ∧
    Walk rest rest events rest

private theorem rests_accrues (watch : Watch World) (rest : UInt32) :
    Accrues (watch.Rests rest) where
  refl world _ := ⟨[], ⟨rfl, (List.append_nil _).symm⟩, .nil⟩
  trans := by
    intro first second third before behind isLow
    rcases before isLow with ⟨events, seen, walk⟩
    have stillLow : watch.output second = rest := by rw [seen.held, isLow, walk.last_eq]
    rcases behind stillLow with ⟨more, seenMore, walkOn⟩
    exact ⟨events ++ more, seen.trans seenMore, walk.append walkOn⟩

private theorem Sees.rests {events : List CoreEvent} {before after : World}
    (low : IsLow rest) (seen : watch.Sees events before after)
    (areSerial : ∀ event ∈ events, Walk.IsSerial event) :
    watch.Rests rest before after :=
  fun _ => ⟨events, seen, .of_serial low areSerial⟩

end Watch

variable {watch : Watch World} {bus : Bus World}

/-! ## The serial line -/

section Serial

variable (low : IsLow rest) (sights : watch.Sights bus)
include low sights

private theorem readStatus_rests : StaysWithin (watch.Rests rest) bus.readStatus := by
  intro world
  rcases sights.readStatus world with ⟨looks, seen⟩
  apply seen.rests low
  intro event member
  rcases List.mem_map.mp member with ⟨look, _, rfl⟩
  exact trivial

private theorem awaitClear_rests (bits : UInt32) (looks : Nat) :
    StaysWithin (watch.Rests rest) (Uart.awaitClear bus bits looks) := by
  have accrues := watch.rests_accrues rest
  induction looks with
  | zero => exact .throw accrues _
  | succ looks induction =>
      apply StaysWithin.bind accrues (readStatus_rests low sights)
      intro status
      split
      · exact .pure accrues ()
      · exact induction

private theorem take_rests : StaysWithin (watch.Rests rest) (Uart.take bus) := by
  have accrues := watch.rests_accrues rest
  apply StaysWithin.bind accrues
  · apply StaysWithin.ofStep
    intro world
    rcases sights.readReceived world with ⟨value, seen⟩
    exact seen.rests low (by simp [Walk.IsSerial])
  · exact fun value => .pure accrues _

private theorem receive_rests : StaysWithin (watch.Rests rest) (Uart.receive bus) :=
  .bind (watch.rests_accrues rest) (awaitClear_rests low sights _ _) fun _ =>
    take_rests low sights

private theorem transmit_rests (byte : UInt8) :
    StaysWithin (watch.Rests rest) (Uart.transmit bus byte) := by
  apply StaysWithin.bind (watch.rests_accrues rest) (awaitClear_rests low sights _ _)
  intro _
  apply StaysWithin.ofStep
  intro world
  exact (sights.writeTransmit byte.toUInt32 world).rests low (by simp [Walk.IsSerial])

private theorem drain_rests (slots : Nat) :
    StaysWithin (watch.Rests rest) (Uart.drain bus slots) := by
  have accrues := watch.rests_accrues rest
  induction slots with
  | zero => exact .pure accrues []
  | succ slots induction =>
      apply StaysWithin.bind accrues (readStatus_rests low sights)
      intro status
      split
      · exact .bind accrues (take_rests low sights) fun _ =>
          .bind accrues induction fun _ => .pure accrues _
      · exact .pure accrues []

private theorem read_rests (slots : Nat) :
    StaysWithin (watch.Rests rest) (Uart.read bus slots) := by
  have accrues := watch.rests_accrues rest
  cases slots with
  | zero => exact .pure accrues []
  | succ slots =>
      exact .bind accrues (receive_rests low sights) fun _ =>
        .bind accrues (drain_rests low sights slots) fun _ => .pure accrues _

private theorem transmitAll_rests (bytes : List UInt8) :
    StaysWithin (watch.Rests rest) (Uart.transmitAll bus bytes) := by
  have accrues := watch.rests_accrues rest
  induction bytes with
  | nil => exact .pure accrues ()
  | cons byte later induction =>
      exact .bind accrues (transmit_rests low sights byte) fun _ => induction

private theorem port_rests : (Uart.port bus).CallsWithin (watch.Rests rest) where
  read wanted := .bind (watch.rests_accrues rest) (read_rests low sights wanted) fun _ =>
    .pure (watch.rests_accrues rest) _
  write bytes :=
    .bind (watch.rests_accrues rest)
      (.bind (watch.rests_accrues rest) (transmitAll_rests low sights bytes) fun _ =>
        .pure (watch.rests_accrues rest) _) fun _ => .pure (watch.rests_accrues rest) _
  flush := .pure (watch.rests_accrues rest) true

private theorem putAll_rests (message : List UInt8) :
    StaysWithin (watch.Rests rest) ((console bus).putAll message) := by
  have accrues := watch.rests_accrues rest
  induction message with
  | nil => exact .pure accrues ()
  | cons byte later induction =>
      exact .bind accrues (transmit_rests low sights byte) fun _ => induction

private theorem print_rests (enabled : Bool) (message : List UInt8) :
    StaysWithin (watch.Rests rest)
      (Printer.print { console := console bus, enabled } message) := by
  rw [Printer.print]
  split
  · exact putAll_rests low sights _
  · exact .pure (watch.rests_accrues rest) ()

end Serial

/-! ## The trigger line -/

private theorem changeOutput_seen (sights : watch.Sights bus) (change : UInt32 → UInt32)
    (world : World) :
    watch.Sees [.outputRead (watch.output world),
      .outputWritten (change (watch.output world))] world
      (changeOutput bus change world) := by
  rcases sights.readOutput world with ⟨isOutput, read⟩
  have written :=
    sights.writeOutput (change (watch.output world)) (bus.readOutput world).2
  rw [← isOutput] at written
  rw [changeOutput]
  exact isOutput ▸ read.trans written

/-- Around the workload the trigger bit is set and cleared again, also when the workload
breaks down. -/
theorem around_rests (low : IsLow rest) (sights : watch.Sights bus)
    {workload : Action World Unit} (executes : watch.Executes workload) :
    StaysWithin (watch.Rests rest) ((pin bus).around workload) := by
  intro world isLow
  let raised := changeOutput bus (· ||| triggerMask) world
  let ran := (Session.ending workload raised).2
  have seenRaising := changeOutput_seen sights (· ||| triggerMask) world
  have isHigh : watch.output raised = rest ||| triggerMask := by
    rw [seenRaising.held, isLow]
    rfl
  have stillHigh : watch.output ran = rest ||| triggerMask := by
    rw [(executes raised).held, isHigh]
    rfl
  have seenLowering := changeOutput_seen sights (· &&& ~~~triggerMask) ran
  rw [isLow] at seenRaising
  rw [stillHigh, low.clear_set] at seenLowering
  -- Whether the workload breaks down decides on the result alone: the line is lowered
  -- from the same register either way.
  have isEnd : (Session.ending ((pin bus).around workload) world).2 =
      changeOutput bus (· &&& ~~~triggerMask) ran := by
    simp only [Session.ending, Pin.around, Pin.window, Pin.raise, pin, ran, raised]
    cases workload (changeOutput bus (· ||| triggerMask) world) <;> rfl
  rw [isEnd]
  refine ⟨_, (seenRaising.trans (executes raised)).trans seenLowering, ?_⟩
  have writesRest : rest &&& ~~~triggerMask = rest := low
  exact .cons rfl
    (.cons low.clear_set (.cons low.trigger_set (.cons rfl (.cons writesRest .nil))))

private theorem measure_rests (low : IsLow rest) (sights : watch.Sights bus)
    {workload : Action World Unit} (executes : watch.Executes workload) (enabled : Bool)
    (selection : List UInt8) :
    StaysWithin (watch.Rests rest)
      (Measurement.measure
        { pin := pin bus, workload, printer := { console := console bus, enabled } }
        selection) := by
  have accrues := watch.rests_accrues rest
  apply StaysWithin.bind accrues (around_rests low sights executes)
  intro window
  split
  · exact .bind accrues (print_rests low sights enabled _) fun _ => .pure accrues _
  · exact .pure accrues _

/-! ## Runs -/

def scene (watch : Watch World) (bus : Bus World) (workload : Action World Unit) :
    Session.Rigging.Scene World CoreEvent where
  board := board bus
  workload := workload
  drain world := (watch.log world, world)
  feed _ world := world
  setEndless _ world := world

def rig (settings : Settings) (bus : Bus World)
    (workload : Action World Unit) : Rig World where
  settings := settings
  mode := settings.mode
  port := Uart.port bus
  measurement :=
    { pin := pin bus, workload,
      printer := { console := console bus, enabled := settings.debug } }

theorem setUp_run (settings : Settings) (bus : Bus World) (workload : Action World Unit)
    (world : World) :
    Rig.setUp settings (board bus) workload world =
      (Printer.print { console := console bus, enabled := settings.debug } banner >>=
        fun _ =>
        pure (rig settings bus workload))
        (changeOutput bus (· &&& ~~~triggerMask) world) :=
  rfl

private theorem rig_rests (low : IsLow rest) (sights : watch.Sights bus)
    {workload : Action World Unit} (executes : watch.Executes workload)
    (settings : Settings) :
    (rig settings bus workload).WorksWithin (watch.Rests rest) where
  calls := port_rests low sights
  measures := measure_rests low sights executes settings.debug

private theorem scene_rests (watch : Watch World) (bus : Bus World)
    (workload : Action World Unit) (rest : UInt32) :
    (scene watch bus workload).IntervenesWithin (watch.Rests rest) where
  drain := (watch.rests_accrues rest).refl
  feed _ := (watch.rests_accrues rest).refl
  setEndless _ := (watch.rests_accrues rest).refl

/-- Lowering the trigger line is the first thing that setting up does. Everything else
starts from there. -/
theorem afterRun_rests (low : IsLow rest) (sights : watch.Sights bus)
    {workload : Action World Unit} (executes : watch.Executes workload)
    (settings : Settings) (steps : List Session.Rigging.Step) (world : World) :
    watch.Rests rest (changeOutput bus (· &&& ~~~triggerMask) world)
      (Session.Rigging.afterRun (scene watch bus workload) settings steps world) := by
  have accrues := watch.rests_accrues rest
  have opening := setUp_run settings bus workload world
  have shown :=
    print_rests low sights settings.debug banner
      (changeOutput bus (· &&& ~~~triggerMask) world)
  simp only [Session.ending] at shown
  cases printed : Printer.print { console := console bus, enabled := settings.debug }
    banner (changeOutput bus (· &&& ~~~triggerMask) world) with
  | ok _ ready =>
      rw [bind_of_ok printed] at opening
      simp only [printed] at shown
      rw [Session.Rigging.afterRun_of_ok opening]
      exact accrues.trans shown
        (Session.Rigging.afterSteps_related accrues (scene_rests watch bus workload rest)
          (rig_rests low sights executes settings) steps ready)
  | error stop stopped =>
      rw [bind_of_error printed] at opening
      simp only [printed] at shown
      rw [Session.Rigging.afterRun_of_error opening]
      exact shown

/-- However a rig on a soft core is used, its serial line is only touched while the
trigger bit is clear, its workload only runs while the bit is set, and the other bits are
written as they were at the start. Whether all is done or the serial line is waited for in
vain, the trigger bit is clear in the end. -/
theorem trigger_bit_guarded (sights : watch.Sights bus) {workload : Action World Unit}
    (executes : watch.Executes workload) (settings : Settings)
    (steps : List Session.Rigging.Step) (world : World) :
    let rest := watch.output world &&& ~~~triggerMask
    ∃ events,
      watch.Sees events world (Session.Rigging.afterRun (scene watch bus workload)
        settings steps world) ∧ Walk rest (watch.output world) events rest := by
  intro rest
  have low : IsLow rest := isLow_cleared _
  have seenLowering := changeOutput_seen sights (· &&& ~~~triggerMask) world
  have isLow : watch.output (changeOutput bus (· &&& ~~~triggerMask) world) = rest :=
    seenLowering.held
  rcases afterRun_rests low sights executes settings steps world isLow with
    ⟨events, seen, walk⟩
  exact ⟨_, seenLowering.trans seen, .cons rfl (.cons low walk)⟩

end SoftCore

/-! ## The simulated soft core -/

namespace Simulation.Core

open SoftCore

def watch : Watch Core where
  output := Core.output
  log := Core.log

private theorem watch_sights : watch.Sights bus where
  readStatus core := by
    by_cases waited : patience ≤ core.looks
    · simp only [Session.ending, bus, readStatus, if_pos waited]
      exact ⟨[], rfl, (List.append_nil _).symm⟩
    · simp only [Session.ending, bus, readStatus, if_neg waited]
      exact ⟨[(core.nextStatus.1, 1)], rfl, rfl⟩
  readReceived core := ⟨core.arrivals.headD 0, rfl, rfl⟩
  writeTransmit _ _ := ⟨rfl, rfl⟩
  readOutput _ := ⟨rfl, rfl, rfl⟩
  writeOutput _ _ := ⟨rfl, rfl⟩

private theorem watch_executes : watch.Executes execute := by
  intro core
  simp only [Session.ending, execute]
  rcases core.workload.execute with ⟨_ | _, workload⟩ <;> exact ⟨rfl, rfl⟩

/-- A soft core with all output lines high, on which a run command comes in and the second
execution breaks down. -/
def ofOneCommand : Core where
  arrivals := "141\n".toList.map fun character => character.toUInt8.toUInt32
  statuses := []
  output := 0xFFFFFFFF
  looks := 0
  workload := { executions := .ofFailures (· == 1) }
  log := []

/-- A frame is served, a measurement breaks down, and serving goes on until no more bytes
come. -/
theorem ofOneCommand_guarded :
    let watched := SoftCore.scene watch bus execute
    let after :=
      Session.Rigging.afterRun watched .usual [.serveOne 1, .measureOnce,
        .serve] ofOneCommand
    watch.Sights bus ∧ watch.Executes execute ∧ after.log.count .executed = 2 ∧
      ∃ events, watch.Sees events ofOneCommand after ∧
      Walk 0xFFFFFFFE 0xFFFFFFFF events 0xFFFFFFFE := by
  refine ⟨watch_sights, watch_executes, ?_, ?_⟩
  · decide +kernel
  · exact trigger_bit_guarded watch_sights watch_executes .usual [.serveOne 1,
      .measureOnce, .serve] ofOneCommand

end Simulation.Core

end TriggerBench
