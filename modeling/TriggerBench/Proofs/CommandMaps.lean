import Mathlib.Data.List.Nodup
import TriggerBench.Proofs.Polls
import TriggerBench.Proofs.Registrations

/-! # The command table as a bounded map

However commands are registered and whatever is polled in between, the table maps each
command to its last accepted registration, and is never larger than it may be. In which
order the commands came into the table shows nowhere.
-/

namespace TriggerBench

open Simulation

variable {World : Type} {capacity : Nat}

namespace CommandTable

variable {table other after : CommandTable World} {entry : CommandEntry World}

/-! ## Registering -/

structure Keyed (table : CommandTable World) : Prop where
  distinct : (table.entries.map (·.command)).Nodup
  count_le : table.entries.length ≤ maxCommands

theorem mem_commands_iff (table : CommandTable World) (command : UInt8) :
    command ∈ table.entries.map (·.command) ↔ (table.find? command).isSome := by
  simp [find?, List.find?_isSome]

private theorem map_replaceIn (entry : CommandEntry World)
    (entries : List (CommandEntry World)) :
    (replaceIn entry entries).map (·.command) = entries.map (·.command) := by
  induction entries with
  | nil => rfl
  | cons present rest induction =>
      rw [replaceIn]
      split
      case isTrue same => simp [beq_iff_eq.mp same]
      case isFalse => simp [induction]

theorem Keyed.register (keyed : table.Keyed) (done : table.register entry = .ok after) :
    after.Keyed := by
  have registered := registered table entry
  rw [done] at registered
  cases registered with
  | replaced _ _ =>
      constructor
      · rw [map_replaceIn]
        exact keyed.distinct
      · have sameLength := congrArg List.length (map_replaceIn entry table.entries)
        rw [List.length_map, List.length_map] at sameLength
        rw [sameLength]
        exact keyed.count_le
  | added _ unknown room =>
      constructor
      · rw [List.map_append, List.map_singleton, List.nodup_append]
        refine ⟨keyed.distinct, List.nodup_singleton _, ?_⟩
        intro command present added isAdded same
        rw [List.mem_singleton] at isAdded
        rw [same, isAdded, mem_commands_iff, unknown] at present
        cases present
      · rw [List.length_append, List.length_singleton]
        exact room

/-- A command is refused for its length before anything else, and else for the room in the
table if it is a new one. -/
theorem Keyed.refused_iff (keyed : table.Keyed) (entry : CommandEntry World) :
    (table.register entry = .error .payloadTooLong ↔ maxPayload < entry.length) ∧
      (table.register entry = .error .full ↔
        entry.length ≤ maxPayload ∧ table.find? entry.command = none ∧
        table.entries.length = maxCommands) := by
  have countLe := keyed.count_le
  have registered := registered table entry
  generalize table.register entry = result at registered
  cases registered with
  | payloadTooLong long => exact ⟨by simp [long], by simp [Nat.not_le.mpr long]⟩
  | full fits unknown noRoom =>
      have isFull : table.entries.length = maxCommands := Nat.le_antisymm countLe noRoom
      exact ⟨by simp [fits], by simp [fits, unknown, isFull]⟩
  | replaced fits known =>
      have notNone : table.find? entry.command ≠ none :=
        Option.isSome_iff_ne_none.mp known
      exact ⟨by simp [fits], by simp [notNone]⟩
  | added fits unknown room => exact ⟨by simp [fits], by simp [Nat.ne_of_lt room]⟩

theorem Built.keyed (built : table.Built) : table.Keyed := by
  induction built with
  | empty => exact ⟨List.nodup_nil, Nat.zero_le _⟩
  | registered _ done induction => exact induction.register done

/-! ## Tables in which the same is found -/

def FindsAlike (table other : CommandTable World) : Prop :=
  ∀ command, other.find? command = table.find? command

private theorem FindsAlike.length_eq (alike : table.FindsAlike other)
    (keyed : table.Keyed) (otherKeyed : other.Keyed) :
    other.entries.length = table.entries.length := by
  have sameCommands :
      (other.entries.map (·.command)).Perm (table.entries.map (·.command)) := by
    apply (List.perm_ext_iff_of_nodup otherKeyed.distinct keyed.distinct).mpr
    intro command
    rw [mem_commands_iff, mem_commands_iff, alike command]
  simpa using sameCommands.length_eq

/-- Registering in tables in which the same is found is refused for the same reason, or
finds the same afterwards. -/
theorem FindsAlike.register (alike : table.FindsAlike other) (keyed : table.Keyed)
    (otherKeyed : other.Keyed) (entry : CommandEntry World) :
    (∃ refusal, table.register entry = .error refusal ∧
      other.register entry = .error refusal) ∨
      ∃ after otherAfter, table.register entry = .ok after ∧
      other.register entry = .ok otherAfter ∧ after.FindsAlike otherAfter := by
  have sameLength := alike.length_eq keyed otherKeyed
  have refused := keyed.refused_iff entry
  have otherRefused := otherKeyed.refused_iff entry
  rw [alike entry.command, sameLength] at otherRefused
  cases result : table.register entry with
  | error refusal =>
      refine .inl ⟨refusal, rfl, ?_⟩
      cases refusal with
      | payloadTooLong => exact otherRefused.1.mpr (refused.1.mp result)
      | full => exact otherRefused.2.mpr (refused.2.mp result)
  | ok after =>
      cases otherResult : other.register entry with
      | error refusal =>
          have sameRefusal : table.register entry = .error refusal := by
            cases refusal with
            | payloadTooLong => exact refused.1.mpr (otherRefused.1.mp otherResult)
            | full => exact refused.2.mpr (otherRefused.2.mp otherResult)
          rw [sameRefusal] at result
          cases result
      | ok otherAfter =>
          refine .inr ⟨after, otherAfter, rfl, rfl, ?_⟩
          intro command
          rw [find?_of_register result, find?_of_register otherResult, alike command]

end CommandTable

/-! ## Responders that differ in the order of their commands -/

namespace Responder

structure Alike (responder other : Responder World) : Prop where
  protocol : other.protocol = responder.protocol
  answersVersion : other.answersVersion = responder.answersVersion
  found : responder.table.FindsAlike other.table

variable {responder other : Responder World}

theorem Alike.examine (alike : responder.Alike other) (staged : List UInt8) :
    other.examine staged = responder.examine staged := by
  have expected : other.expectedLength = responder.expectedLength := by
    funext command
    simp only [expectedLength, alike.found command, alike.answersVersion]
  simp only [Responder.examine, alike.protocol, expected]

theorem Alike.answer (alike : responder.Alike other) (port : Port World)
    (received : Received) :
    other.answer port received = responder.answer port received := by
  have rejects : other.reject port = responder.reject port := by
    funext reason
    simp only [reject, alike.protocol]
  have acknowledges : other.acknowledge port = responder.acknowledge port := by
    funext command answer
    simp only [acknowledge, alike.protocol]
  cases received with
  | dropped reason => simp only [Responder.answer, rejects]
  | frame frame =>
      simp only [Responder.answer, dispatch, alike.found frame.command,
        alike.answersVersion, alike.protocol, rejects, acknowledges]

theorem Alike.serveOne (alike : responder.Alike other) (port : Port World)
    (link : Link capacity World) :
    other.serveOne port link = responder.serveOne port link := by
  have receives : (other.receive port : Activity (Link capacity World) Received) =
      responder.receive port := by
    funext link
    exact receive_congr alike.examine link
  have answers : other.answer port = responder.answer port := by
    funext received
    exact alike.answer port received
  simp only [Responder.serveOne, receives, answers]

end Responder

/-! ## Stations -/

structure Station (capacity : Nat) (World : Type) where
  responder : Responder World
  link : Link capacity World

namespace Station

inductive Use (World : Type)
  | register (entry : CommandEntry World)
  | answerVersion
  | poll
  /-- The world goes on, by bytes that arrive or otherwise. -/
  | elapse (change : World → World)

inductive Seen
  | registered (refusal : Option RegistrationError)
  | polled (result : Except Interruption Outcome)
  | nothing
  deriving DecidableEq, Repr

def start (protocol : Protocol) (world : World) : Station capacity World where
  responder := .ofProtocol protocol
  link := .fresh world

def use (port : Port World) (station : Station capacity World) :
    Use World → Seen × Station capacity World
  | .register entry =>
      match station.responder.register entry.command entry.length entry.handler with
      | .ok responder => (.registered none, { station with responder })
      | .error refusal => (.registered (some refusal), station)
  | .answerVersion =>
      (.nothing, { station with responder := station.responder.answeringVersion })
  | .poll =>
      match station.responder.serveOne port station.link with
      | .ok outcome link => (.polled (.ok outcome), { station with link })
      | .error interruption link => (.polled (.error interruption), { station with link })
  | .elapse change =>
      (.nothing,
        { station with link := { station.link with world := change station.link.world } })

def uses (port : Port World) (station : Station capacity World) :
    List (Use World) → List Seen × Station capacity World
  | [] => ([], station)
  | first :: later =>
      let (seen, middle) := station.use port first
      let (seenLater, after) := middle.uses port later
      (seen :: seenLater, after)

def accepted? : Use World × Seen → Option (CommandEntry World)
  | (.register entry, .registered none) => some entry
  | _ => none

/-- The last registration of a command that is accepted when a station is used. -/
def latest? (port : Port World) (station : Station capacity World)
    (uses : List (Use World)) (command : UInt8) : Option (CommandEntry World) :=
  ((uses.zip (station.uses port uses).1).filterMap accepted?).reverse.find?
    (·.command == command)

variable {port : Port World} {station other : Station capacity World}

private theorem uses_cons (first : Use World) (later : List (Use World)) :
    station.uses port (first :: later) =
      ((station.use port first).1 :: ((station.use port first).2.uses port later).1,
        ((station.use port first).2.uses port later).2) :=
  rfl

private theorem uses_append (first later : List (Use World)) :
    (station.uses port (first ++ later)).2 =
      ((station.uses port first).2.uses port later).2 := by
  induction first generalizing station with
  | nil => rfl
  | cons use rest induction =>
      rw [List.cons_append, uses_cons, uses_cons]
      exact induction

private theorem use_of_accepted {entry : CommandEntry World} {table : CommandTable World}
    (done : station.responder.table.register entry = .ok table) :
    station.use port (.register entry) =
      (.registered none,
        { station with responder := { station.responder with table } }) := by
  simp only [use, Responder.register, done, Except.map]

private theorem use_of_refused {entry : CommandEntry World} {refusal : RegistrationError}
    (done : station.responder.table.register entry = .error refusal) :
    station.use port (.register entry) = (.registered (some refusal), station) := by
  simp only [use, Responder.register, done, Except.map]

inductive Used (station : Station capacity World) :
    Use World → Seen × Station capacity World → Prop
  | accepted {entry table} (done : station.responder.table.register entry = .ok table) :
      Used station (.register entry) (.registered none,
        { station with responder := { station.responder with table } })
  | refused {entry refusal}
      (done : station.responder.table.register entry = .error refusal) :
      Used station (.register entry) (.registered (some refusal), station)
  | otherwise {use seen after} (unaccepted : accepted? (use, seen) = none)
      (sameTable : after.responder.table = station.responder.table)
      (sameProtocol : after.responder.protocol = station.responder.protocol) :
      Used station use (seen, after)

theorem used (port : Port World) (station : Station capacity World) (use : Use World) :
    Used station use (station.use port use) := by
  cases use with
  | register entry =>
      cases done : station.responder.table.register entry with
      | ok table =>
          rw [use_of_accepted done]
          exact .accepted done
      | error refusal =>
          rw [use_of_refused done]
          exact .refused done
  | answerVersion => exact .otherwise rfl rfl rfl
  | poll =>
      rw [use]
      cases station.responder.serveOne port station.link with
      | ok outcome link => exact .otherwise rfl rfl rfl
      | error interruption link => exact .otherwise rfl rfl rfl
  | elapse change => exact .otherwise rfl rfl rfl

/-! ## What the table holds -/

private theorem latest?_of_accepted {first : Use World} {entry : CommandEntry World}
    (isAccepted : accepted? (first, (station.use port first).1) = some entry)
    (later : List (Use World)) (command : UInt8) :
    station.latest? port (first :: later) command =
      ((station.use port first).2.latest? port later command).or
        (if entry.command = command then some entry else none) := by
  simp [latest?, uses_cons, isAccepted, List.find?_append]

private theorem latest?_of_unaccepted {first : Use World}
    (unaccepted : accepted? (first, (station.use port first).1) = none)
    (later : List (Use World)) (command : UInt8) :
    station.latest? port (first :: later) command =
      (station.use port first).2.latest? port later command := by
  simp [latest?, uses_cons, unaccepted]

private theorem uses_found (uses : List (Use World)) (command : UInt8) :
    (station.uses port uses).2.responder.table.find? command =
      (station.latest? port uses command).or (station.responder.table.find? command) := by
  induction uses generalizing station with
  | nil => rfl
  | cons first later induction =>
      have used := used port station first
      rw [uses_cons]
      generalize result : station.use port first = after at used
      cases used with
      | @accepted entry table done =>
          rw [latest?_of_accepted (by rw [result]; rfl), result, induction,
            Option.or_assoc, CommandTable.find?_of_register done]
          split <;> simp
      | refused _ => rw [latest?_of_unaccepted (by rw [result]; rfl), result, induction]
      | otherwise unaccepted sameTable _ =>
          rw [latest?_of_unaccepted (by rw [result]; exact unaccepted), result,
            induction, sameTable]

private theorem uses_built (built : station.responder.table.Built)
    (uses : List (Use World)) :
    (station.uses port uses).2.responder.table.Built := by
  induction uses generalizing station with
  | nil => exact built
  | cons first later induction =>
      have used := used port station first
      rw [uses_cons]
      apply induction
      generalize station.use port first = after at used
      cases used with
      | accepted done => exact .registered built done
      | refused _ => exact built
      | otherwise _ sameTable _ =>
          rw [sameTable]
          exact built

private theorem uses_protocol (uses : List (Use World)) :
    (station.uses port uses).2.responder.protocol = station.responder.protocol := by
  induction uses generalizing station with
  | nil => rfl
  | cons first later induction =>
      have used := used port station first
      rw [uses_cons, induction]
      generalize station.use port first = after at used
      cases used with
      | accepted _ => rfl
      | refused _ => rfl
      | otherwise _ _ sameProtocol => exact sameProtocol

/-! ## Stations that differ in the order of their commands -/

structure Alike (station other : Station capacity World) : Prop where
  responder : station.responder.Alike other.responder
  link : other.link = station.link
  built : station.responder.table.Built
  otherBuilt : other.responder.table.Built

theorem Alike.use (alike : station.Alike other) (port : Port World) (use : Use World) :
    (other.use port use).1 = (station.use port use).1 ∧
      (station.use port use).2.Alike (other.use port use).2 := by
  cases use with
  | register entry =>
      rcases alike.responder.found.register alike.built.keyed alike.otherBuilt.keyed
        entry with ⟨refusal, done, otherDone⟩ | ⟨after, otherAfter, done,
          otherDone, found⟩
      · rw [use_of_refused done, use_of_refused otherDone]
        exact ⟨rfl, alike⟩
      · rw [use_of_accepted done, use_of_accepted otherDone]
        refine ⟨rfl, ⟨alike.responder.protocol, alike.responder.answersVersion, found⟩,
          alike.link, ?_, ?_⟩
        · exact .registered alike.built done
        · exact .registered alike.otherBuilt otherDone
  | answerVersion =>
      have sameResponder : (station.use port .answerVersion).2.responder.Alike
          (other.use port .answerVersion).2.responder :=
        ⟨alike.responder.protocol, rfl, alike.responder.found⟩
      exact ⟨rfl, sameResponder, alike.link, alike.built, alike.otherBuilt⟩
  | poll =>
      have serves := alike.responder.serveOne port station.link
      simp only [Station.use, alike.link, serves]
      cases station.responder.serveOne port station.link with
      | ok outcome link =>
          exact ⟨rfl, alike.responder, rfl, alike.built, alike.otherBuilt⟩
      | error interruption link =>
          exact ⟨rfl, alike.responder, rfl, alike.built, alike.otherBuilt⟩
  | elapse change =>
      refine ⟨rfl, alike.responder, ?_, alike.built, alike.otherBuilt⟩
      simp only [Station.use, alike.link]

theorem Alike.uses (alike : station.Alike other) (port : Port World)
    (uses : List (Use World)) :
    (other.uses port uses).1 = (station.uses port uses).1 ∧
      (station.uses port uses).2.Alike (other.uses port uses).2 := by
  induction uses generalizing station other with
  | nil => exact ⟨rfl, alike⟩
  | cons first later induction =>
      rcases alike.use port first with ⟨sameSeen, middleAlike⟩
      rcases induction middleAlike with ⟨sameLater, afterAlike⟩
      rw [uses_cons, uses_cons, sameSeen, sameLater]
      exact ⟨rfl, afterAlike⟩

/-- Registering touches nothing but the table. -/
theorem uses_register (station : Station capacity World) (port : Port World)
    (entries : List (CommandEntry World)) :
    ∃ table, (station.uses port (entries.map .register)).2 =
      { station with responder := { station.responder with table } } := by
  induction entries generalizing station with
  | nil => exact ⟨station.responder.table, rfl⟩
  | cons entry later induction =>
      rw [List.map_cons, uses_cons]
      cases done : station.responder.table.register entry with
      | ok table =>
          rw [use_of_accepted done]
          exact induction _
      | error refusal =>
          rw [use_of_refused done]
          exact induction station

/-! ## The bounded map -/

structure Maps (table : CommandTable World)
    (latest : UInt8 → Option (CommandEntry World)) : Prop where
  count_le : table.entries.length ≤ maxCommands
  distinct : (table.entries.map (·.command)).Nodup
  lengths_le : ∀ entry ∈ table.entries, entry.length ≤ maxPayload
  found : ∀ command, table.find? command = latest command

structure Judges (port : Port World) (station : Station capacity World)
    (latest : UInt8 → Option (CommandEntry World))
    (entry : CommandEntry World) : Prop where
  payloadTooLong : (station.use port (.register entry)).1 =
      .registered (some .payloadTooLong) ↔ maxPayload < entry.length
  full : (station.use port (.register entry)).1 = .registered (some .full) ↔
    entry.length ≤ maxPayload ∧ latest entry.command = none ∧
    station.responder.table.entries.length = maxCommands
  refused : ∀ refusal,
    (station.use port (.register entry)).1 = .registered (some refusal) → ∀ later,
    station.uses port (.register entry :: later) =
      (.registered (some refusal) :: (station.uses port later).1,
        (station.uses port later).2)

/-- Stations of which the same is seen, and whose links are the same, however they are
used. -/
def Resembles (port : Port World) (station other : Station capacity World) : Prop :=
  ∀ uses, (other.uses port uses).1 = (station.uses port uses).1 ∧
    (other.uses port uses).2.link = (station.uses port uses).2.link

private theorem judges (built : station.responder.table.Built)
    {latest : UInt8 → Option (CommandEntry World)}
    (found : ∀ command, station.responder.table.find? command = latest command)
    (entry : CommandEntry World) :
    station.Judges port latest entry := by
  have refusedIff := built.keyed.refused_iff entry
  rw [found entry.command] at refusedIff
  cases done : station.responder.table.register entry with
  | ok table =>
      rw [done] at refusedIff
      constructor
      · rw [use_of_accepted done, ← refusedIff.1]
        simp
      · rw [use_of_accepted done, ← refusedIff.2]
        simp
      · rw [use_of_accepted done]
        simp
  | error refusal =>
      rw [done] at refusedIff
      constructor
      · rw [use_of_refused done, ← refusedIff.1]
        simp
      · rw [use_of_refused done, ← refusedIff.2]
        simp
      · rw [use_of_refused done]
        intro found isFound later
        rw [uses_cons, use_of_refused done, isFound]

/-- Runs from the start in which the latest registrations are the same lead to stations
that are alike, if they have come to the same link. -/
theorem alike_of_latest (port : Port World) (protocol : Protocol) (world : World)
    {uses others : List (Use World)} :
    let start : Station capacity World := start protocol world
    (start.uses port others).2.link = (start.uses port uses).2.link →
      (start.uses port others).2.responder.answersVersion =
        (start.uses port uses).2.responder.answersVersion →
        (∀ command, start.latest? port others command = start.latest? port uses command) →
          (start.uses port uses).2.Alike (start.uses port others).2 := by
  intro start sameLink sameVersion sameLatest
  refine ⟨⟨?_, sameVersion, ?_⟩, sameLink, uses_built .empty _, uses_built .empty _⟩
  · rw [uses_protocol, uses_protocol]
  · intro command
    rw [uses_found, uses_found, sameLatest]

/-- The table is a bounded map at any time. It maps each command to its latest accepted
registration, and refuses only lengths that are too long, and new commands when it is
full. Which of two commands was registered first makes no difference to anything that is
seen later. -/
theorem table_is_bounded_map (port : Port World) (protocol : Protocol) (world : World)
    (uses : List (Use World)) :
    let start : Station capacity World := start protocol world
    let station := (start.uses port uses).2
    Maps station.responder.table (start.latest? port uses) ∧
      (∀ entry, station.Judges port (start.latest? port uses) entry) ∧
      (∀ others, (start.uses port others).2.link = station.link →
        (start.uses port others).2.responder.answersVersion =
          station.responder.answersVersion →
          (∀ command, start.latest? port others command =
            start.latest? port uses command) →
            station.Resembles port (start.uses port others).2) ∧
      ∀ first second : List (CommandEntry World),
        (∀ command, start.latest? port (uses ++ second.map .register) command =
          start.latest? port (uses ++ first.map .register) command) →
            (start.uses port (uses ++ first.map .register)).2.Resembles port
              (start.uses port (uses ++ second.map .register)).2 := by
  intro start station
  have built : station.responder.table.Built := uses_built .empty uses
  have found (command : UInt8) :
      station.responder.table.find? command = start.latest? port uses command := by
    rw [uses_found]
    exact Option.or_none
  refine ⟨⟨built.keyed.count_le, built.keyed.distinct, built.length_le, found⟩,
    judges built found, ?_, ?_⟩
  · intro others sameLink sameVersion sameLatest later
    have laterAlike :=
      (alike_of_latest port protocol world sameLink sameVersion
        sameLatest).uses port later
    exact ⟨laterAlike.1, laterAlike.2.link⟩
  · intro first second sameLatest later
    have sameRest : ∀ entries : List (CommandEntry World), ∃ table,
        (start.uses port (uses ++ entries.map .register)).2 =
          { station with responder := { station.responder with table } } := by
      intro entries
      rw [uses_append]
      exact uses_register station port entries
    rcases sameRest first with ⟨firstTable, isFirst⟩
    rcases sameRest second with ⟨secondTable, isSecond⟩
    have laterAlike :=
      (alike_of_latest port protocol world (by rw [isFirst, isSecond])
        (by rw [isFirst, isSecond]) sameLatest).uses port later
    exact ⟨laterAlike.1, laterAlike.2.link⟩

def answering (command : Char) (length : Nat) (status : UInt8) :
    CommandEntry (Bench Unit) where
  command := command.toUInt8
  length := length
  handler := fun _ reply => pure { status, reply }

def replacing : List (CommandEntry (Bench Unit)) :=
  [answering 'a' 1 0x01, answering 'b' 0 0x02, answering 'a' 2 0x03]

def reordered : List (CommandEntry (Bench Unit)) :=
  [answering 'b' 0 0x02, answering 'c' 65 0x09, answering 'a' 2 0x03]

theorem reordered_resembles :
    let start : Station 8 (Bench Unit) := start .v1_1 Bench.plain
    let station := (start.uses Bench.port (replacing.map .register)).2
    let other := (start.uses Bench.port (reordered.map .register)).2
    let later : List (Use (Bench Unit)) :=
      [.elapse (Bench.feed · [.bytes ("b\na4142\n".toList.map Char.toUInt8)]),
        .poll, .poll]
    (∀ command, start.latest? Bench.port (reordered.map .register) command =
        start.latest? Bench.port (replacing.map .register) command) ∧
      station.responder.table.entries.map (·.command) = ['a'.toUInt8, 'b'.toUInt8] ∧
      other.responder.table.entries.map (·.command) = ['b'.toUInt8, 'a'.toUInt8] ∧
      (other.uses Bench.port later).1 = (station.uses Bench.port later).1 ∧
      (station.uses Bench.port later).1 =
        [.nothing, .polled (.ok (.handled 'b'.toUInt8 0x02)),
          .polled (.ok (.handled 'a'.toUInt8 0x03))] := by
  intro start station other later
  have sameLatest (command : UInt8) :
      start.latest? Bench.port (reordered.map .register) command =
      start.latest? Bench.port (replacing.map .register) command := by
    change [answering 'a' 2 0x03, answering 'b' 0 0x02].find? (·.command == command) =
      [answering 'a' 2 0x03, answering 'b' 0 0x02, answering 'a' 1 0x01].find?
        (·.command == command)
    simp only [List.find?_cons, List.find?_nil, answering]
    cases 'a'.toUInt8 == command <;> cases 'b'.toUInt8 == command <;> rfl
  have resembles : station.Resembles Bench.port other :=
    (table_is_bounded_map Bench.port .v1_1 Bench.plain []).2.2.2 replacing
      reordered sameLatest
  refine ⟨sameLatest, ?_, ?_, (resembles later).1, ?_⟩
  · decide +kernel
  · decide +kernel
  · decide +kernel

end Station

end TriggerBench
