import TriggerBench.Proofs.Transmission
import TriggerBench.Proofs.TriggerRegister

/-! # The serial line of the soft core

Each byte is taken or sent right behind a look at the status register that allows it. A
read returns what was taken and a write sends what it was given, byte for byte, whatever
the status register says and whenever it says so. A wait without an end is the only thing
that cuts them short.
-/

namespace TriggerBench

open Simulation

namespace SoftCore

variable {World : Type}

/-! ## Bytes in a log -/

def heardBytes (events : List CoreEvent) : List UInt8 :=
  events.filterMap fun
    | .received value => some value.toUInt8
    | _ => none

def transmittedValues (events : List CoreEvent) : List UInt32 :=
  events.filterMap fun
    | .transmitted value => some value
    | _ => none

def guard? : CoreEvent → Option UInt32
  | .received _ => some nothingReceived
  | .transmitted _ => some transmitterFull
  | _ => none

/-- Every guarded access comes directly behind a look at the status register that found
its bits clear. -/
def Heeded (events : List CoreEvent) : Prop :=
  ∀ ⦃earlier event later bits⦄, events = earlier ++ event :: later →
    guard? event = some bits →
    ∃ before status, earlier = before ++ [.status status 1] ∧ status &&& bits = 0

theorem Heeded.append {events more : List CoreEvent} (first : Heeded events)
    (second : Heeded more) :
    Heeded (events ++ more) := by
  intro earlier event later bits split guarded
  rcases List.append_eq_append_iff.mp split with
    ⟨rest, rfl, inMore⟩ | ⟨rest, inEvents, split⟩
  · rcases second inMore guarded with ⟨before, status, rfl, clear⟩
    exact ⟨events ++ before, status, (List.append_assoc ..).symm, clear⟩
  · cases rest with
    | nil =>
        -- The second part cannot begin with a guarded access: there is nothing in front
        -- of it there.
        have atStart : more = [] ++ event :: later := split.symm
        rcases second atStart guarded with ⟨before, status, nothing, _⟩
        cases before <;> cases nothing
    | cons _ rest =>
        cases split
        exact first inEvents guarded

private theorem heeded_of_unguarded {events : List CoreEvent}
    (unguarded : ∀ event ∈ events, guard? event = none) :
    Heeded events := by
  rintro earlier event later bits rfl guarded
  rw [unguarded event (by simp)] at guarded
  cases guarded

private theorem heeded_look {status bits : UInt32} {event : CoreEvent}
    (guarded : guard? event = some bits) (clear : status &&& bits = 0) :
    Heeded [.status status 1, event] := by
  intro earlier other later otherBits split otherGuarded
  rcases earlier with _ | ⟨first, _ | ⟨second, rest⟩⟩
  · cases split
    cases otherGuarded
  · cases split
    cases guarded.symm.trans otherGuarded
    exact ⟨[], status, rfl, clear⟩
  · simp at split

/-! ## Registers that are watched -/

def lookTimes (bus : Bus World) : Nat → Action World Unit
  | 0 => pure ()
  | times + 1 => do
      let _ ← bus.readStatus
      lookTimes bus times

namespace Watch

structure Notes (watch : Watch World) (bus : Bus World) (events : List CoreEvent)
    (before after : World) : Prop where
  logged : watch.log after = watch.log before ++ events
  supplied : bus.supply after ≤ bus.supply before

/-- A bus of which every access is logged. The status register can be read right behind a
byte, but not without end while nothing else happens, and each byte that it lets through
uses up some of the supply. -/
structure Follows (watch : Watch World) (bus : Bus World) : Prop where
  looked : ∀ {world status after}, bus.readStatus world = .ok status after →
    watch.Notes bus [.status status 1] world after
  endless : ∀ {world stop after}, bus.readStatus world = .error stop after →
    stop = .endlessWait ∧ watch.Notes bus [] world after
  received : ∀ world, watch.Notes bus [.received (bus.readReceived world).1] world
    (bus.readReceived world).2
  transmitted : ∀ value world,
    watch.Notes bus [.transmitted value] world (bus.writeTransmit value world)
  outputRead : ∀ world,
    watch.Notes bus [.outputRead (bus.readOutput world).1] world (bus.readOutput world).2
  outputWritten : ∀ value world,
    watch.Notes bus [.outputWritten value] world (bus.writeOutput value world)
  patient : ∀ world after, lookTimes bus (bus.patience + 1) world ≠ .ok () after
  prompt : ∀ world, ∃ status after,
    bus.readStatus (bus.readReceived world).2 = .ok status after
  spent : ∀ {world status after}, bus.readStatus world = .ok status after →
    status &&& nothingReceived = 0 →
    bus.supply (bus.readReceived after).2 < bus.supply world

def Leaves (watch : Watch World) (bus : Bus World)
    (workload : Action World Unit) : Prop :=
  ∀ world, watch.Notes bus [.executed] world (Session.ending workload world).2

def Carries (watch : Watch World) (heard said : List UInt8)
    (before after : World) : Prop :=
  ∃ events, watch.log after = watch.log before ++ events ∧ Heeded events ∧
    heardBytes events = heard ∧ transmittedValues events = said.map UInt8.toUInt32

structure Exchanges (watch : Watch World) (bus : Bus World) (heard said : List UInt8)
    (before after : World) : Prop where
  carried : watch.Carries heard said before after
  supplied : heard.length + bus.supply after ≤ bus.supply before

variable {watch : Watch World} {bus : Bus World}
  {heard moreHeard said moreSaid : List UInt8} {first second third : World}

theorem Exchanges.refl (world : World) : watch.Exchanges bus [] [] world world where
  carried := ⟨[], (List.append_nil _).symm, heeded_of_unguarded (by simp), rfl, rfl⟩
  supplied := by simp

theorem Exchanges.trans (before : watch.Exchanges bus heard said first second)
    (behind : watch.Exchanges bus moreHeard moreSaid second third) :
    watch.Exchanges bus (heard ++ moreHeard) (said ++ moreSaid) first third where
  carried := by
    rcases before.carried with ⟨events, logged, heeded, rfl, isSaid⟩
    rcases behind.carried with ⟨more, loggedMore, heededMore, rfl, isSaidMore⟩
    refine ⟨events ++ more, ?_, heeded.append heededMore, List.filterMap_append, ?_⟩
    · rw [loggedMore, logged, List.append_assoc]
    · rw [List.map_append, ← isSaid, ← isSaidMore]
      exact List.filterMap_append
  supplied := by
    have suppliedBefore := before.supplied
    have suppliedBehind := behind.supplied
    rw [List.length_append]
    omega

/-- First something is received, and then something is sent. -/
theorem Exchanges.then_sends (hears : watch.Exchanges bus heard [] first second)
    (sends : watch.Exchanges bus [] said second third) :
    watch.Exchanges bus heard said first third := by
  have both := hears.trans sends
  rwa [List.append_nil, List.nil_append] at both

/-- Accesses to other registers carry nothing. -/
theorem Notes.exchanges {events : List CoreEvent}
    (notes : watch.Notes bus events first second)
    (unguarded : ∀ event ∈ events, guard? event = none) :
    watch.Exchanges bus [] [] first second where
  carried := by
    refine ⟨events, notes.logged, heeded_of_unguarded unguarded,
      List.filterMap_eq_nil_iff.mpr ?_, List.filterMap_eq_nil_iff.mpr ?_⟩
    all_goals
      intro event member
      have isUnguarded := unguarded event member
      cases event <;> simp [guard?] at isUnguarded ⊢
  supplied := by simpa using notes.supplied

end Watch

open Watch

variable {watch : Watch World} {bus : Bus World}

/-! ## Waiting -/

/-- A wait without end: each look at the status register finds some of the bits set, until
it cannot be looked at any more. -/
inductive Waits (bus : Bus World) (bits : UInt32) : World → World → Prop
  | stuck {before after} (endless : bus.readStatus before = .error .endlessWait after) :
      Waits bus bits before after
  | again {before middle after status}
      (looked : bus.readStatus before = .ok status middle) (busy : status &&& bits ≠ 0)
      (later : Waits bus bits middle after) : Waits bus bits before after

inductive Awaited (watch : Watch World) (bus : Bus World) (bits : UInt32) (looks : Nat)
    (world : World) :
    EStateM.Result Stop World Unit → Prop
  | ready {status last after} (waited : watch.Exchanges bus [] [] world last)
      (looked : bus.readStatus last = .ok status after) (clear : status &&& bits = 0) :
      Awaited watch bus bits looks world (.ok () after)
  | endless {after} (waits : Waits bus bits world after) :
      Awaited watch bus bits looks world (.error .endlessWait after)
  | exhausted {after last} (looked : lookTimes bus looks world = .ok () last) :
      Awaited watch bus bits looks world (.error .outOfTurns after)

section Driver

variable (follows : watch.Follows bus)
include follows

private theorem look_exchanges {world after : World} {status : UInt32}
    (looked : bus.readStatus world = .ok status after) :
    watch.Exchanges bus [] [] world after :=
  (follows.looked looked).exchanges (by simp [guard?])

/-- Nothing is received or sent during a wait. -/
theorem Waits.exchanges {bits : UInt32} {before after : World}
    (waits : Waits bus bits before after) :
    watch.Exchanges bus [] [] before after := by
  induction waits with
  | stuck endless => exact (follows.endless endless).2.exchanges (by simp)
  | again looked _ _ induction => exact (look_exchanges follows looked).trans induction

theorem Watch.Exchanges.then_waits {heard said : List UInt8} {bits : UInt32}
    {first second third : World} (exchanged : watch.Exchanges bus heard said first second)
    (waits : Waits bus bits second third) :
    watch.Exchanges bus heard said first third := by
  have both := exchanged.trans (waits.exchanges follows)
  rwa [List.append_nil, List.append_nil] at both

private theorem awaitClear_awaited (bits : UInt32) (looks : Nat) (world : World) :
    Awaited watch bus bits looks world (Uart.awaitClear bus bits looks world) := by
  induction looks generalizing world with
  | zero => exact .exhausted rfl
  | succ looks induction =>
      rw [Uart.awaitClear]
      cases looked : bus.readStatus world with
      | error stop after =>
          cases (follows.endless looked).1
          rw [bind_of_error looked]
          exact .endless (.stuck looked)
      | ok status after =>
          rw [bind_of_ok looked]
          by_cases clear : status &&& bits = 0
          · rw [if_pos clear]
            exact .ready (.refl world) looked clear
          · rw [if_neg clear]
            have behind := induction after
            generalize Uart.awaitClear bus bits looks after = result at behind
            cases behind with
            | ready waited lookedLast isClear =>
                exact .ready ((look_exchanges follows looked).trans waited)
                  lookedLast isClear
            | endless waits => exact .endless (.again looked clear waits)
            | exhausted lookedOn =>
                exact .exhausted (by rw [lookTimes, bind_of_ok looked, lookedOn])

/-- With patience, waiting ends by itself or not at all. -/
theorem await_ready_or_endless (bits : UInt32) (world : World) :
    (∃ status last after, Uart.awaitClear bus bits (bus.patience + 1) world =
      .ok () after ∧ watch.Exchanges bus [] [] world last ∧
      bus.readStatus last = .ok status after ∧ status &&& bits = 0) ∨
      (∃ after, Uart.awaitClear bus bits (bus.patience + 1) world =
        .error .endlessWait after ∧ Waits bus bits world after) := by
  have awaited := awaitClear_awaited follows bits (bus.patience + 1) world
  generalize Uart.awaitClear bus bits (bus.patience + 1) world = result at awaited ⊢
  cases awaited with
  | ready waited looked clear => exact .inl ⟨_, _, _, rfl, waited, looked, clear⟩
  | endless waits => exact .inr ⟨_, rfl, waits⟩
  | exhausted looked => exact absurd looked (follows.patient world _)

/-! ## Reading -/

private theorem take_exchanges {world after : World} {status : UInt32}
    (looked : bus.readStatus world = .ok status after)
    (clear : status &&& nothingReceived = 0) :
    watch.Exchanges bus [(bus.readReceived after).1.toUInt8] [] world
      (bus.readReceived after).2 where
  carried := by
    refine ⟨[.status status 1, .received (bus.readReceived after).1], ?_,
      heeded_look rfl clear, rfl, rfl⟩
    rw [(follows.received after).logged, (follows.looked looked).logged,
      List.append_assoc]
    rfl
  supplied := by
    have spent := follows.spent looked clear
    simp only [List.length_singleton]
    omega

/-- Behind a byte that was received, further ones are taken as long as there are some, and
there is room for them. -/
theorem drain_run (slots : Nat) (world : World) :
    ∃ bytes after, Uart.drain bus slots (bus.readReceived world).2 = .ok bytes after ∧
      bytes.length ≤ slots ∧
      watch.Exchanges bus bytes [] (bus.readReceived world).2 after := by
  induction slots generalizing world with
  | zero => exact ⟨[], _, rfl, Nat.le_refl 0, .refl _⟩
  | succ slots induction =>
      -- The first look comes right behind a byte, so that it is not part of a wait, and
      -- draining cannot be cut short.
      rcases follows.prompt world with ⟨status, ready, looked⟩
      rw [Uart.drain, bind_of_ok looked]
      by_cases clear : status &&& nothingReceived = 0
      · rcases induction ready with ⟨bytes, after, drained, fits, behind⟩
        have before := take_exchanges follows looked clear
        have taken : Uart.take bus ready = .ok (bus.readReceived ready).1.toUInt8
            (bus.readReceived ready).2 := rfl
        refine ⟨_ :: bytes, after, ?_, Nat.succ_le_succ fits, before.trans behind⟩
        rw [if_pos clear, bind_of_ok taken, bind_of_ok drained]
        rfl
      · rw [if_neg clear]
        exact ⟨[], ready, rfl, Nat.zero_le _, look_exchanges follows looked⟩

/-- A read with room for some bytes returns at least one and no more than there is room
for. They are the bytes that were taken from the line meanwhile. Or else the line is
waited for without end, and no byte is taken. -/
theorem read_run {slots : Nat} (positive : 0 < slots) (world : World) :
    (∃ bytes after, Uart.read bus slots world = .ok bytes after ∧ 1 ≤ bytes.length ∧
      bytes.length ≤ slots ∧ watch.Exchanges bus bytes [] world after) ∨
      (∃ after, Uart.read bus slots world = .error .endlessWait after ∧
        Waits bus nothingReceived world after) := by
  rcases Nat.exists_eq_add_of_lt positive with ⟨others, isSlots⟩
  rw [Nat.zero_add] at isSlots
  rw [isSlots, Uart.read]
  rcases await_ready_or_endless follows nothingReceived world with
    ⟨status, last, after, awaited, waited, looked, clear⟩ | ⟨after, awaited, waits⟩
  · rcases drain_run follows others after with ⟨bytes, final, drained, fits, behind⟩
    have received : Uart.receive bus world =
        .ok (bus.readReceived after).1.toUInt8 (bus.readReceived after).2 := by
      rw [Uart.receive, bind_of_ok awaited]
      rfl
    have exchanged := (waited.trans (take_exchanges follows looked clear)).trans behind
    refine .inl ⟨_ :: bytes, final, ?_, Nat.succ_le_succ (Nat.zero_le _),
      Nat.succ_le_succ fits, exchanged⟩
    rw [bind_of_ok received, bind_of_ok drained]
    rfl
  · have notReceived : Uart.receive bus world = .error .endlessWait after := by
      rw [Uart.receive, bind_of_error awaited]
    exact .inr ⟨after, bind_of_error notReceived, waits⟩

/-- What reads of the port deliver is what was received. -/
theorem port_gathers :
    (Uart.port bus).Gathers fun before bytes after =>
      watch.Exchanges bus bytes [] before after := by
  have reads : ∀ wanted world,
      (∃ bytes after, (Uart.port bus).read wanted world = .ok (some bytes) after ∧
      bytes.length ≤ wanted ∧ watch.Exchanges bus bytes [] world after) ∨
      (∃ after, (Uart.port bus).read wanted world = .error .endlessWait after ∧
        watch.Exchanges bus [] [] world after) := by
    intro wanted world
    rcases Nat.eq_zero_or_pos wanted with rfl | positive
    · exact .inl ⟨[], world, rfl, Nat.le_refl 0, .refl world⟩
    · rcases read_run follows positive world with
        ⟨bytes, after, read, _, fits, exchanged⟩ | ⟨after, read, waits⟩
      · exact .inl ⟨bytes, after, bind_of_ok read, fits, exchanged⟩
      · exact .inr ⟨after, bind_of_error read, waits.exchanges follows⟩
  constructor
  case nothing => exact .refl
  case append => exact Exchanges.trans
  case delivered =>
    intro wanted world bytes after read
    rcases reads wanted world with ⟨_, _, isRead, fits, exchanged⟩ | ⟨_, isRead, _⟩
    · cases isRead.symm.trans read
      exact ⟨fits, exchanged.supplied, exchanged⟩
    · cases isRead.symm.trans read
  case failed =>
    intro wanted world after read
    rcases reads wanted world with ⟨_, _, isRead, _⟩ | ⟨_, isRead, _⟩ <;>
      cases isRead.symm.trans read
  case stopped =>
    intro wanted world stop after read
    rcases reads wanted world with ⟨_, _, isRead, _⟩ | ⟨_, isRead, exchanged⟩
    · cases isRead.symm.trans read
    · cases isRead.symm.trans read
      exact exchanged

/-- A read for some bytes never ends without any, and it never fails. It can only wait for
the line without end. -/
theorem port_starves {wanted : Nat} {before after : World} {reason : Interruption}
    (positive : 0 < wanted)
    (starves : (Uart.port bus).Starves wanted before reason after) :
    reason = .stopped .endlessWait ∧ Waits bus nothingReceived before after := by
  have isRead : (Uart.port bus).read wanted before =
      (Uart.read bus wanted >>= fun bytes => pure (some bytes)) before := rfl
  rcases read_run follows positive before with
    ⟨bytes, final, read, nonempty, _⟩ | ⟨final, read, waits⟩
  · rw [bind_of_ok read] at isRead
    cases starves with
    | ended ended =>
        cases isRead.symm.trans ended
        cases nonempty
    | failed failed => cases isRead.symm.trans failed
    | stopped stopped => cases isRead.symm.trans stopped
  · rw [bind_of_error read] at isRead
    cases starves with
    | ended ended => cases isRead.symm.trans ended
    | failed failed => cases isRead.symm.trans failed
    | stopped stopped =>
        cases isRead.symm.trans stopped
        exact ⟨rfl, waits⟩

end Driver

/-! ## Sending -/

/-- An activity that receives nothing and sends a text, or the beginning of it if it then
waits without end. -/
inductive Speaks {Reason Result : Type} (watch : Watch World) (bus : Bus World)
    (endless : Reason) (result : Result) (text : List UInt8) (before : World) :
    EStateM.Result Reason World Result → Prop
  | all {after} (exchanged : watch.Exchanges bus [] text before after) :
      Speaks watch bus endless result text before (.ok result after)
  | cut {part middle after} (isPart : part <+: text)
      (exchanged : watch.Exchanges bus [] part before middle)
      (waits : Waits bus transmitterFull middle after) :
      Speaks watch bus endless result text before (.error endless after)

namespace Speaks

variable {Reason Result Next : Type} {endless : Reason} {result : Result} {final : Next}
  {text more : List UInt8} {world : World}

theorem pure :
    Speaks watch bus endless result [] world
      ((pure result : EStateM Reason World Result) world) :=
  .all (.refl world)

theorem behind {middle : World} {next : EStateM.Result Reason World Next}
    (exchanged : watch.Exchanges bus [] text world middle)
    (speaks : Speaks watch bus endless final more middle next) :
    Speaks watch bus endless final (text ++ more) world next := by
  cases speaks with
  | all exchangedMore => exact .all (exchanged.trans exchangedMore)
  | cut isPart exchangedMore waits =>
      exact .cut ((List.prefix_append_right_inj text).mpr isPart)
        (exchanged.trans exchangedMore) waits

theorem bind {first : EStateM Reason World Result}
    {next : Result → EStateM Reason World Next}
    (speaks : Speaks watch bus endless result text world (first world))
    (goesOn : ∀ middle, Speaks watch bus endless final more middle (next result middle)) :
    Speaks watch bus endless final (text ++ more) world ((first >>= next) world) := by
  generalize ran : first world = outcome at speaks
  cases speaks with
  | @all middle exchanged =>
      rw [bind_of_ok ran]
      exact .behind exchanged (goesOn middle)
  | cut isPart exchanged waits =>
      rw [bind_of_error ran]
      exact .cut (isPart.trans (List.prefix_append text more)) exchanged waits

/-- Something is done with the result of what is sent, without sending more. -/
theorem map {first : EStateM Reason World Result}
    {next : Result → EStateM Reason World Next}
    (speaks : Speaks watch bus endless result text world (first world))
    (goesOn : ∀ middle, next result middle = .ok final middle) :
    Speaks watch bus endless final text world ((first >>= next) world) := by
  have both :=
    speaks.bind fun middle =>
      (goesOn middle).symm ▸ (Speaks.all (.refl middle) :
      Speaks watch bus endless final [] middle (.ok final middle))
  rwa [List.append_nil] at both

theorem ofAction {action : Action World Result} {stop : Stop}
    (speaks : Speaks watch bus stop result text world (action world)) :
    Speaks watch bus (.stopped stop) result text world
      (Activity.ofAction action world) := by
  generalize ran : action world = outcome at speaks
  cases speaks with
  | all exchanged =>
      rw [ofAction_of_ok ran]
      exact .all exchanged
  | cut isPart exchanged waits =>
      rw [ofAction_of_error ran]
      exact .cut isPart exchanged waits

end Speaks

section Sending

variable (follows : watch.Follows bus)
include follows

private theorem transmit_speaks (byte : UInt8) (world : World) :
    Speaks watch bus .endlessWait () [byte] world (Uart.transmit bus byte world) := by
  rw [Uart.transmit]
  rcases await_ready_or_endless follows transmitterFull world with
    ⟨status, last, after, awaited, waited, looked, clear⟩ | ⟨after, awaited, waits⟩
  · rw [bind_of_ok awaited]
    have sent :
        watch.Exchanges bus [] [byte] last (bus.writeTransmit byte.toUInt32 after) :=
      { carried := by
          refine ⟨[.status status 1, .transmitted byte.toUInt32], ?_,
            heeded_look rfl clear, rfl, rfl⟩
          rw [(follows.transmitted _ after).logged, (follows.looked looked).logged,
            List.append_assoc]
          rfl
        supplied := by
          have suppliedBefore := (follows.looked looked).supplied
          have suppliedBehind := (follows.transmitted byte.toUInt32 after).supplied
          simp only [List.length_nil]
          omega }
    exact .all (waited.trans sent)
  · rw [bind_of_error awaited]
    exact .cut List.nil_prefix (.refl world) waits

private theorem transmitAll_speaks (bytes : List UInt8) (world : World) :
    Speaks watch bus .endlessWait () bytes world (Uart.transmitAll bus bytes world) := by
  induction bytes generalizing world with
  | nil => exact .pure
  | cons byte rest induction => exact .bind (transmit_speaks follows byte world) induction

private theorem write_speaks (bytes : List UInt8) (world : World) :
    Speaks watch bus .endlessWait (some bytes.length) bytes world
      ((Uart.port bus).write bytes world) :=
  .map (.map (transmitAll_speaks follows bytes world) fun _ => rfl) fun _ => rfl

/-- The line takes all bytes of a write, so that each piece is sent in a single call. -/
theorem writeAll_speaks (bytes : List UInt8) (world : World) :
    Speaks watch bus .endlessWait true bytes world
      ((Uart.port bus).writeAll bytes world) := by
  cases bytes with
  | nil => exact .pure
  | cons byte rest =>
      apply (write_speaks follows (byte :: rest) world).map
      intro middle
      simp only [List.length_cons]
      rw [List.drop_of_length_le (by simp)]
      cases rest.length <;> rfl

private theorem sendAll_speaks (bytes : List UInt8) (world : World) :
    Speaks watch bus (.stopped .endlessWait) () bytes world
      ((Uart.port bus).sendAll bytes world) :=
  .map (.ofAction (writeAll_speaks follows bytes world)) fun _ => rfl

theorem port_accounts :
    (Uart.port bus).Accounts fun bytes =>
      Speaks watch bus (.stopped .endlessWait) () bytes where
  nothing _ := .pure
  bind speaks goesOn := speaks.bind goesOn
  sendAll := sendAll_speaks follows
  finish _ := .pure

private theorem putAll_speaks (message : List UInt8) (world : World) :
    Speaks watch bus .endlessWait () message world
      ((console bus).putAll message world) := by
  induction message generalizing world with
  | nil => exact .pure
  | cons byte rest induction => exact .bind (transmit_speaks follows byte world) induction

theorem print_speaks (enabled : Bool) (message : List UInt8) (world : World) :
    Speaks watch bus .endlessWait () (if enabled then message.takeWhile (· != 0) else [])
      world (Printer.print { console := console bus, enabled } message world) := by
  cases enabled with
  | true => exact putAll_speaks follows _ world
  | false => exact .pure

end Sending

/-! ## Measuring -/

section Measuring

variable (follows : watch.Follows bus)
include follows

theorem changeOutput_exchanges (change : UInt32 → UInt32) (world : World) :
    watch.Exchanges bus [] [] world (changeOutput bus change world) :=
  ((follows.outputRead world).exchanges (by simp [guard?])).trans
    ((follows.outputWritten _ _).exchanges (by simp [guard?]))

/-- A measurement is confirmed, if anything is printed at all, or its workload breaks down
and nothing is said. -/
theorem measure_speaks_or_breaks {workload : Action World Unit}
    (leaves : watch.Leaves bus workload) (enabled : Bool) (selection : List UInt8)
    (world : World) :
    let measured :=
      Measurement.measure
        { pin := pin bus, workload, printer := { console := console bus, enabled } }
      selection world
    Speaks watch bus .endlessWait Status.ok (if enabled then confirmation
      else []) world measured ∨
      (∃ stop raised left after, measured = .error stop after ∧
        workload raised = .error stop left ∧ watch.Exchanges bus [] [] world after) := by
  intro measured
  let raised := changeOutput bus (· ||| triggerMask) world
  have raising := changeOutput_exchanges follows (· ||| triggerMask) world
  have executed := (leaves raised).exchanges (by simp [guard?])
  cases ran : workload raised with
  | ok _ finished =>
      simp only [Session.ending, ran] at executed
      have window : (pin bus).around workload world =
          .ok (.closed true) (changeOutput bus (· &&& ~~~triggerMask) finished) := by
        have raisedRan : workload (changeOutput bus (· ||| triggerMask) world) =
            .ok () finished := ran
        simp only [Pin.around, Pin.window, Pin.raise, pin, raisedRan]
      have lowering := changeOutput_exchanges follows (· &&& ~~~triggerMask) finished
      have printed :=
        print_speaks follows enabled confirmation
          (changeOutput bus (· &&& ~~~triggerMask) finished)
      rw [show confirmation.takeWhile (· != 0) = confirmation by decide] at printed
      have isMeasured : measured =
          (Printer.print { console := console bus, enabled } confirmation >>= fun _ =>
          pure Status.ok) (changeOutput bus (· &&& ~~~triggerMask)
            finished) := bind_of_ok window
      rw [isMeasured]
      exact .inl (.behind ((raising.trans executed).trans lowering)
        (.map printed fun _ => rfl))
  | error stop broken =>
      simp only [Session.ending, ran] at executed
      have window : (pin bus).around workload world =
          .error stop (changeOutput bus (· &&& ~~~triggerMask) broken) := by
        have raisedRan : workload (changeOutput bus (· ||| triggerMask) world) =
            .error stop broken := ran
        simp only [Pin.around, Pin.window, Pin.raise, pin, raisedRan]
        rfl
      have lowering := changeOutput_exchanges follows (· &&& ~~~triggerMask) broken
      exact .inr ⟨stop, raised, broken, _, bind_of_error window, ran,
        (raising.trans executed).trans lowering⟩

end Measuring

end SoftCore

end TriggerBench
