import TriggerBench.Proofs.Sequencing
import TriggerBench.Session.Printing

/-! # Printed text

What a printer writes is the text of its messages, each of them up to its first NUL, one
byte after the other. Nothing that becomes of one byte has an effect on whether or how the
next one is written. So a writer that takes a limited number of bytes ends up with the
first of them.
-/

namespace TriggerBench

variable {World Whole : Type}

/-! ## Printing messages in turn -/

namespace Console

theorem putAll_append (console : Console World) (text more : List UInt8) :
    console.putAll (text ++ more) =
      (console.putAll text >>= fun _ => console.putAll more : Action World Unit) := by
  induction text with
  | nil => rfl
  | cons byte rest induction =>
      rw [List.cons_append, putAll, putAll, induction, bind_assoc]

end Console

def textOf (messages : List (List UInt8)) : List UInt8 :=
  messages.flatMap (·.takeWhile (· != 0))

namespace Printer

def printEach (printer : Printer World) : List (List UInt8) → Action World Unit
  | [] => pure ()
  | message :: rest => do
      printer.print message
      printer.printEach rest

private theorem printEach_enabled (console : Console World)
    (messages : List (List UInt8)) :
    printEach { console, enabled := true } messages =
      console.putAll (textOf messages) := by
  induction messages with
  | nil => rfl
  | cons message rest induction =>
      have text : textOf (message :: rest) = message.takeWhile (· != 0) ++ textOf rest :=
        rfl
      rw [printEach, induction, text, Console.putAll_append]
      rfl

private theorem printEach_disabled (console : Console World)
    (messages : List (List UInt8)) :
    printEach { console, enabled := false } messages = pure () := by
  induction messages with
  | nil => rfl
  | cons message rest induction =>
      rw [printEach, induction]
      rfl

end Printer

/-! ## Printing where the console is -/

namespace Component

structure Lawful (component : Component Whole World) : Prop where
  get_set : ∀ world whole, component.get (component.set world whole) = world
  set_get : ∀ whole, component.set (component.get whole) whole = whole
  set_set : ∀ later earlier whole, component.set later (component.set earlier whole) =
    component.set later whole

variable {component : Component Whole World} (lawful : component.Lawful)
include lawful

private theorem lift_bind {Reason Result Next : Type}
    (first : EStateM Reason World Result) (next : Result → EStateM Reason World Next) :
    component.lift (first >>= next) = component.lift first >>= fun result =>
      component.lift (next result) := by
  funext whole
  cases ran : first (component.get whole) with
  | error reason after =>
      have lifted : component.lift first whole =
          .error reason (component.set after whole) := by
        simp only [lift, ran]
      rw [bind_of_error lifted, lift, bind_of_error ran]
  | ok result after =>
      have lifted : component.lift first whole =
          .ok result (component.set after whole) := by
        simp only [lift, ran]
      rw [bind_of_ok lifted, lift, lift, bind_of_ok ran, lawful.get_set]
      cases next result after <;> simp only [lawful.set_set]

private theorem lift_pure {Reason Result : Type} (result : Result) :
    component.lift (pure result : EStateM Reason World Result) = pure result := by
  funext whole
  exact congrArg (EStateM.Result.ok result) (lawful.set_get whole)

private theorem putAll_within (console : Console World) (text : List UInt8) :
    (console.within component).putAll text = component.lift (console.putAll text) := by
  induction text with
  | nil => exact (lift_pure lawful ()).symm
  | cons byte rest induction =>
      rw [Console.putAll, Console.putAll, lift_bind lawful, induction]
      rfl

private theorem print_within (console : Console World) (enabled : Bool)
    (message : List UInt8) :
    Printer.print { console := console.within component, enabled } message =
      component.lift (Printer.print { console, enabled } message) := by
  cases enabled with
  | false => exact (lift_pure lawful ()).symm
  | true => exact putAll_within lawful console _

end Component

/-! ## Writers of limited room -/

namespace Writer

structure TakesFirst (writer : Writer World) (held : World → List UInt8)
    (room : World → Nat) : Prop where
  takes : ∀ byte world, 0 < room world →
    ∃ after, writer.write [byte] world = .ok (some 1) after ∧
    held after = held world ++ [byte] ∧ room after = room world - 1
  refuses : ∀ byte world, room world = 0 → ∃ after,
    writer.write [byte] world = .ok none after ∧ held after = held world ∧ room after = 0

def Notes (writer : Writer World) (attempts : World → List (List UInt8)) : Prop :=
  ∀ bytes world, attempts (Session.ending (writer.write bytes) world).2 =
    attempts world ++ [bytes]

def offerEach (writer : Writer World) (bytes : List UInt8) (world : World) : World :=
  bytes.foldl (fun world byte => (Session.ending (writer.write [byte]) world).2) world

private theorem attempts_offerEach {writer : Writer World}
    {attempts : World → List (List UInt8)} (notes : writer.Notes attempts)
    (bytes : List UInt8) (world : World) :
    attempts (writer.offerEach bytes world) =
      attempts world ++ bytes.map fun byte => [byte] := by
  induction bytes generalizing world with
  | nil => exact (List.append_nil _).symm
  | cons byte rest induction =>
      have behind := induction (writer.offerEach [byte] world)
      have first : attempts (writer.offerEach [byte] world) =
          attempts world ++ [[byte]] := notes [byte] world
      rw [first, List.append_assoc] at behind
      exact behind

private theorem put_of_write {writer : Writer World} {byte : UInt8} {world after : World}
    {accepted : Option Nat} (wrote : writer.write [byte] world = .ok accepted after)
    (noStall : accepted ≠ some 0) :
    (Console.ofWriter writer).put byte world =
      .ok () (writer.offerEach [byte] world) := by
  have all : writer.writeAll [byte] world = .ok accepted.isSome after := by
    rw [writeAll, List.length_singleton, writeAllWithin, bind_of_ok wrote]
    match accepted with
    | none => rfl
    | some 0 => exact absurd rfl noStall
    | some (count + 1) =>
        simp only [List.drop_succ_cons, List.drop_nil]
        rfl
  have offered : writer.offerEach [byte] world = after := by
    simp only [offerEach, List.foldl_cons, List.foldl_nil, Session.ending, wrote]
  rw [offered, Console.ofWriter]
  exact bind_of_ok all

section Limited

variable {writer : Writer World} {held : World → List UInt8} {room : World → Nat}
  (takesFirst : writer.TakesFirst held room)
include takesFirst

private theorem offer_held (byte : UInt8) (world : World) :
    held (writer.offerEach [byte] world) = held world ++ [byte].take (room world) ∧
      room (writer.offerEach [byte] world) = room world - 1 := by
  rcases Nat.eq_zero_or_pos (room world) with noRoom | someRoom
  · rcases takesFirst.refuses byte world noRoom with ⟨after, refused, sameHeld, sameRoom⟩
    simp [offerEach, Session.ending, refused, sameHeld, sameRoom, noRoom]
  · rcases takesFirst.takes byte world someRoom with ⟨after, taken, nowHeld, lessRoom⟩
    have whole : [byte].take (room world) = [byte] := List.take_of_length_le someRoom
    simp [offerEach, Session.ending, taken, nowHeld, lessRoom, whole]

private theorem offerEach_held (bytes : List UInt8) (world : World) :
    held (writer.offerEach bytes world) = held world ++ bytes.take (room world) := by
  induction bytes generalizing world with
  | nil => simp [offerEach]
  | cons byte rest induction =>
      rcases offer_held takesFirst byte world with ⟨nowHeld, roomLeft⟩
      have behind := induction (writer.offerEach [byte] world)
      rw [nowHeld, roomLeft, List.append_assoc] at behind
      have split : (byte :: rest).take (room world) = [byte].take (room world) ++
          rest.take (room world - 1) := by
        rw [← List.singleton_append, List.take_append, List.length_singleton]
      rw [split]
      exact behind

/-- A character costs one call, and nobody is told if it fails. -/
theorem put_run (byte : UInt8) (world : World) :
    (Console.ofWriter writer).put byte world =
      .ok () (writer.offerEach [byte] world) := by
  rcases Nat.eq_zero_or_pos (room world) with noRoom | someRoom
  · rcases takesFirst.refuses byte world noRoom with ⟨after, refused, _⟩
    exact put_of_write refused (by decide)
  · rcases takesFirst.takes byte world someRoom with ⟨after, taken, _⟩
    exact put_of_write taken (by decide)

private theorem putAll_offers (text : List UInt8) (world : World) :
    (Console.ofWriter writer).putAll text world =
      .ok () (writer.offerEach text world) := by
  induction text generalizing world with
  | nil => rfl
  | cons byte rest induction =>
      rw [Console.putAll, bind_of_ok (put_run takesFirst byte world), induction]
      rfl

private theorem printEach_offers (messages : List (List UInt8)) (world : World) :
    Printer.printEach { console := .ofWriter writer, enabled := true } messages world =
      .ok () (writer.offerEach (textOf messages) world) := by
  rw [Printer.printEach_enabled]
  exact putAll_offers takesFirst _ world

end Limited

def noted (writer : Writer World) : Writer (World × List (List UInt8)) where
  write bytes := fun (world, offered) =>
    match writer.write bytes world with
    | .ok accepted after => .ok accepted (after, offered ++ [bytes])
    | .error stop after => .error stop (after, offered ++ [bytes])

private theorem noted_notes (writer : Writer World) : writer.noted.Notes Prod.snd := by
  intro bytes world
  simp only [Session.ending, noted]
  cases writer.write bytes world.1 <;> rfl

theorem TakesFirst.noted {writer : Writer World} {held : World → List UInt8}
    {room : World → Nat} (takesFirst : writer.TakesFirst held room) :
    writer.noted.TakesFirst (fun world => held world.1) (fun world => room world.1) where
  takes byte world someRoom := by
    rcases takesFirst.takes byte world.1 someRoom with ⟨after, taken, nowHeld, lessRoom⟩
    exact ⟨(after, world.2 ++ [[byte]]), by simp only [Writer.noted, taken],
      nowHeld, lessRoom⟩
  refuses byte world noRoom := by
    rcases takesFirst.refuses byte world.1 noRoom with
      ⟨after, refused, sameHeld, sameRoom⟩
    exact ⟨(after, world.2 ++ [[byte]]), by simp only [Writer.noted, refused],
      sameHeld, sameRoom⟩

end Writer

private theorem Printer.foldl_of_printEach {printer : Printer World}
    {messages : List (List UInt8)} {world after : World}
    (ran : printer.printEach messages world = .ok () after) :
    messages.foldl (fun world message => (Session.ending (printer.print message) world).2)
      world = after := by
  induction messages generalizing world with
  | nil =>
      cases ran
      rfl
  | cons message rest induction =>
      rcases ok_of_bind ran with ⟨_, middle, printed, behind⟩
      have first : (Session.ending (printer.print message) world).2 = middle := by
        simp only [Session.ending, printed]
      rw [List.foldl_cons, first, induction behind]

/-! ## Rows of bytes -/

namespace Simulation.Sink

private theorem write_of_room (byte : UInt8) (written : List UInt8) (cell : UInt8)
    (rest : List UInt8) :
    writer.write [byte] { written, rest := cell :: rest } =
      .ok (some 1) { written := written ++ [byte], rest } := by
  rfl

private theorem write_of_full (byte : UInt8) (written : List UInt8) :
    writer.write [byte] { written, rest := [] } = .ok none { written, rest := [] } :=
  rfl

private theorem writer_takesFirst :
    writer.TakesFirst written fun sink => sink.rest.length where
  takes byte sink someRoom := by
    match sink, someRoom with
    | { written, rest := cell :: rest }, _ =>
        exact ⟨_, write_of_room byte written cell rest, rfl, rfl⟩
  refuses byte sink noRoom := by
    match sink, noRoom with
    | { written, rest := [] }, _ => exact ⟨_, write_of_full byte written, rfl, rfl⟩

private theorem rest_offerEach (text : List UInt8) (sink : Sink) :
    (writer.offerEach text sink).rest = sink.rest.drop text.length := by
  induction text generalizing sink with
  | nil => rfl
  | cons byte text induction =>
      have first : (writer.offerEach [byte] sink).rest = sink.rest.drop 1 := by
        match sink with
        | { written, rest := [] } => rfl
        | { written, rest := cell :: rest } =>
            simp only [Writer.offerEach, List.foldl_cons, List.foldl_nil,
              Session.ending, write_of_room]
            rfl
      have behind := induction (writer.offerEach [byte] sink)
      rw [first, List.drop_drop, Nat.add_comm] at behind
      exact behind

end Simulation.Sink

namespace Session.Printing

open Simulation

private theorem runOnSink_enabled (room : Nat) (messages : List (List UInt8)) :
    runOnSink true room messages =
      (textOf messages).take room ++ List.replicate
        (room - (textOf messages).length) 0 := by
  have printed :=
    Writer.printEach_offers Sink.writer_takesFirst messages (Sink.ofRoom room)
  have isWritten :=
    Writer.offerEach_held Sink.writer_takesFirst (textOf messages) (Sink.ofRoom room)
  have rest := Sink.rest_offerEach (textOf messages) (Sink.ofRoom room)
  simp only [Sink.ofRoom, List.length_replicate, List.nil_append, List.drop_replicate]
    at isWritten rest
  rw [runOnSink, Printer.foldl_of_printEach printed, Sink.cells, Sink.ofRoom,
    isWritten, rest]

private theorem runOnSink_disabled (room : Nat) (messages : List (List UInt8)) :
    runOnSink false room messages = List.replicate room 0 := by
  have nothing : Printer.printEach { console := .ofWriter Sink.writer, enabled := false }
      messages (Sink.ofRoom room) = .ok () (Sink.ofRoom room) := by
    rw [Printer.printEach_disabled]
    rfl
  rw [runOnSink, Printer.foldl_of_printEach nothing]
  rfl

private theorem desk_lawful : (Desk.component : Component (Desk World) World).Lawful where
  get_set _ _ := rfl
  set_get _ := rfl
  set_set _ _ _ := rfl

private theorem print_borrowed (console : Console World) (enabled : Bool)
    (message : List UInt8) :
    print .borrowed console enabled message = print .owned console enabled message :=
  Component.print_within desk_lawful console enabled message

/-- Printing messages in turn offers each byte of their text once, so that a writer of
limited room, or a row of bytes, ends up with the first of them. A disabled printer does
nothing, and a borrowed console is used like an owned one. -/
theorem prints_first_bytes {writer : Writer World} {held : World → List UInt8}
    {room : World → Nat} {attempts : World → List (List UInt8)}
    (takesFirst : writer.TakesFirst held room) (notes : writer.Notes attempts)
    (messages : List (List UInt8)) (world : World) :
    (∃ after,
      Printer.printEach { console := .ofWriter writer, enabled := true } messages
        world = .ok () after ∧
        held after = held world ++ (textOf messages).take (room world) ∧
        attempts after = attempts world ++ (textOf messages).map fun byte => [byte]) ∧
    (∀ size,
      runOnSink true size messages =
          (textOf messages).take size ++ List.replicate
            (size - (textOf messages).length) 0 ∧
        runOnSink false size messages = List.replicate size 0) ∧
    (∀ console : Console World,
      Printer.printEach { console, enabled := false } messages world = .ok () world) ∧
    ∀ (console : Console World) enabled message,
      print .borrowed console enabled message = print .owned console enabled message := by
  refine ⟨⟨writer.offerEach (textOf messages) world, ?_, ?_, ?_⟩, ?_, ?_, ?_⟩
  · exact Writer.printEach_offers takesFirst messages world
  · exact Writer.offerEach_held takesFirst (textOf messages) world
  · exact Writer.attempts_offerEach notes (textOf messages) world
  · intro size
    exact ⟨runOnSink_enabled size messages, runOnSink_disabled size messages⟩
  · intro console
    rw [Printer.printEach_disabled]
    rfl
  · exact print_borrowed

/-- Two messages that go on behind a NUL, an empty one, and one that finds room for half
of it, on five bytes. -/
theorem fiveBytes_first :
    let writer := Sink.writer.noted
    let messages : List (List UInt8) :=
      [[0x4F, 0x4B, 0x21, 0x00, 0x3F], [0x00, 0x3F], [], [0x44, 0x6F, 0x6E, 0x65]]
    writer.TakesFirst (fun world => world.1.written) (fun world => world.1.rest.length) ∧
      writer.Notes Prod.snd ∧
      (∃ after,
        Printer.printEach { console := .ofWriter writer, enabled := true } messages
          (Sink.ofRoom 5, []) = .ok () after ∧
          after.1.written = [0x4F, 0x4B, 0x21, 0x44, 0x6F] ∧
          after.2 = [[0x4F], [0x4B], [0x21], [0x44], [0x6F], [0x6E], [0x65]]) ∧
      runOnSink true 9 messages =
        [0x4F, 0x4B, 0x21, 0x44, 0x6F, 0x6E, 0x65, 0x00, 0x00] := by
  intro writer messages
  have takesFirst := Sink.writer_takesFirst.noted
  have notes := Sink.writer.noted_notes
  rcases prints_first_bytes takesFirst notes messages (Sink.ofRoom 5, []) with
    ⟨⟨after, printed, isWritten, isOffered⟩, rows, _⟩
  refine ⟨takesFirst, notes, ⟨after, printed, ?_, ?_⟩, ?_⟩
  · exact isWritten.trans (by decide)
  · exact isOffered.trans (by decide)
  · exact (rows 9).1.trans (by decide)

end Session.Printing

end TriggerBench
