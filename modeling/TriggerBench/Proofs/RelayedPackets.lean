import Mathlib.Data.List.Dedup
import Mathlib.Data.List.Perm.Subperm
import TriggerBench.Proofs.CommandMaps
import TriggerBench.Proofs.Conversations
import TriggerBench.Proofs.GaplessLines

/-! # Relayed packets

Under the text protocols a packet looks like a frame with the same data. What one
responder puts on its line, another one hands to its handlers, packet for packet, if the
tags are registered there with the lengths of the data.
-/

namespace TriggerBench

open Simulation

variable {Memory : Type} {capacity : Nat}

/-! ## Packets as frames -/

namespace Packet

def request (packet : Packet) : Request where
  command := packet.tag
  subcommand := 0
  payload := packet.data

def frame (packet : Packet) (short : packet.IsShort) : Frame where
  command := packet.tag
  subcommand := 0
  payload := ⟨packet.data, short⟩

def entry (handlers : UInt8 → Handler Memory) (packet : Packet) :
    CommandEntry Memory where
  command := packet.tag
  length := packet.data.length
  handler := handlers packet.tag

end Packet

private theorem Protocol.form_of_isText {protocol : Protocol}
    (text : protocol.isText = true) (packet : Packet) :
    protocol.form packet = packet.tag :: (Hex.spell packet.data ++ ['\n'.toUInt8]) := by
  rw [form, if_pos text, ResponsePacket.flatten_line]

private theorem Protocol.length_form_of_isText {protocol : Protocol}
    (text : protocol.isText = true) (packet : Packet) :
    (protocol.form packet).length = 2 * packet.data.length + 2 := by
  simp [form_of_isText text]

/-- The form of a packet is a wire form of its frame. The tag may be any byte, also a
terminator or a digit. -/
theorem Packet.written_frame {packet : Packet} (short : packet.IsShort)
    {sender receiver : Protocol} (senderText : sender.isText = true)
    (receiverText : receiver.isText = true) :
    (packet.frame short).Written receiver (sender.form packet) := by
  rw [Protocol.form_of_isText senderText]
  apply Frame.Written.line receiverText
  · rfl
  · exact Hex.map_capital_spell packet.data
  · exact .inl rfl

namespace Responder

/-! ## Sending -/

private theorem call_put (responder : Responder (Bench Memory))
    (link : Link capacity (Bench Memory)) (packet : Packet) :
    ∃ result log, (responder.call link (.put packet)).1 = .put packet result log := by
  rw [call]
  split
  case h_1 after _ => exact ⟨.ok (), after.world.log, rfl⟩
  case h_2 reason after _ => exact ⟨.error reason, after.world.log, rfl⟩

private theorem put_sends (responder : Responder Memory) {packet : Packet}
    (short : packet.IsShort) {link : Link capacity (Bench Memory)}
    (wellFormed : link.staged.WellFormed) (faultless : link.world.line.Faultless) :
    let report := (responder.attended.call link (.put packet)).1
    (∃ log, report = .put packet (.ok ()) log) ∧
      report.bytes = responder.protocol.form packet := by
  have conveys := (responder.put_passes packet wellFormed faultless).conveys
  rcases responder.attended.call_put link packet with ⟨result, log, isPut⟩
  rw [isPut] at conveys ⊢
  rcases conveys with ⟨packets, told, _, bytes⟩
  cases told with
  | put _ => exact ⟨⟨log, rfl⟩, by simpa using bytes⟩
  | refused long => exact absurd short (Nat.not_le.mpr long)

/-- On a line that does not fail, packets are sent one behind the other. -/
theorem puts_send (responder : Responder Memory) {packets : List Packet}
    (short : ∀ packet ∈ packets, packet.IsShort) {link : Link capacity (Bench Memory)}
    (wellFormed : link.staged.WellFormed) (faultless : link.world.line.Faultless) :
    let reports := (responder.attended.calls (packets.map .put) link).1
    List.Forall₂ (fun packet report => ∃ log, report = Report.put packet (.ok ()) log)
        packets reports ∧
      reports.flatMap Report.bytes = packets.flatMap responder.protocol.form := by
  induction packets generalizing link with
  | nil => exact ⟨.nil, rfl⟩
  | cons packet rest induction =>
      rw [List.forall_mem_cons] at short
      have sent := responder.put_sends short.1 wellFormed faultless
      have passes := responder.put_passes packet wellFormed faultless
      have later := induction short.2 passes.wellFormed passes.faultless
      constructor
      · exact .cons sent.1 later.1
      · rw [List.flatMap_cons, ← later.2, ← sent.2]
        rfl

/-! ## Registering -/

def registerTags (handlers : UInt8 → Handler Memory) :
    List Packet → Responder Memory → Except RegistrationError (Responder Memory)
  | [], responder => .ok responder
  | packet :: rest, responder => do
      let after ← responder.register packet.tag packet.data.length (handlers packet.tag)
      registerTags handlers rest after

/-- Packets that one responder can take up: their tags fit into its table, and each tag
has one length. -/
structure Registrable (packets : List Packet) : Prop where
  short : ∀ packet ∈ packets, packet.IsShort
  sameLength : ∀ packet ∈ packets, ∀ other ∈ packets, packet.tag = other.tag →
    packet.data.length = other.data.length
  few : (packets.map Packet.tag).dedup.length ≤ maxCommands

end Responder

private theorem CommandTable.Keyed.register_of_few {World : Type}
    {table : CommandTable World} (keyed : table.Keyed) {entry : CommandEntry World}
    (fits : entry.length ≤ maxPayload) {commands : List UInt8}
    (known : ∀ present ∈ table.entries, present.command ∈ commands)
    (member : entry.command ∈ commands) (few : commands.dedup.length ≤ maxCommands) :
    ∃ after, table.register entry = .ok after := by
  cases done : table.register entry with
  | ok after => exact ⟨after, rfl⟩
  | error refusal =>
      cases refusal with
      | payloadTooLong =>
          exact absurd fits (Nat.not_le.mpr ((keyed.refused_iff entry).1.mp done))
      | full =>
          rcases (keyed.refused_iff entry).2.mp done with ⟨_, unknown, isFull⟩
          -- The new command is one more than there may be, and all of them are among the
          -- few.
          have distinct : (entry.command :: table.entries.map (·.command)).Nodup := by
            apply List.nodup_cons.mpr
            constructor
            · rw [mem_commands_iff, unknown]
              exact Bool.false_ne_true
            · exact keyed.distinct
          have among : entry.command :: table.entries.map (·.command) ⊆
              commands.dedup := by
            intro command present
            rw [List.mem_dedup]
            cases present with
            | head => exact member
            | tail _ present =>
                rcases List.mem_map.mp present with ⟨found, inTable, rfl⟩
                exact known found inTable
          have countLe := (List.subperm_of_subset distinct among).length_le
          rw [List.length_cons, List.length_map, isFull] at countLe
          omega

namespace Responder

private theorem register_ok {responder : Responder Memory} {entry : CommandEntry Memory}
    {table : CommandTable Memory} (done : responder.table.register entry = .ok table) :
    responder.register entry.command entry.length entry.handler =
      .ok { responder with table } := by
  rw [register, done]
  rfl

/-- A packet that is still to be registered, or is known already, stays so when another
one is registered. Registering a tag once more replaces its entry by an equal one. -/
private theorem known_of_register {handlers : UInt8 → Handler Memory} {all : List Packet}
    (registrable : Registrable all) {packet other : Packet} (among : packet ∈ all)
    (member : other ∈ all) {rest : List Packet} {table after : CommandTable Memory}
    (done : table.register (packet.entry handlers) = .ok after)
    (known : other ∈ packet :: rest ∨
      table.find? other.tag = some (other.entry handlers)) :
    other ∈ rest ∨ after.find? other.tag = some (other.entry handlers) := by
  rw [CommandTable.find?_of_register done]
  by_cases same : packet.tag = other.tag
  · have sameEntry : packet.entry handlers = other.entry handlers := by
      simp only [Packet.entry, same,
        registrable.sameLength packet among other member same]
    rw [← sameEntry]
    exact .inr (if_pos same)
  · rcases known with inPackets | inTable
    · cases inPackets with
      | head => exact absurd rfl same
      | tail _ inRest => exact .inl inRest
    · exact .inr ((if_neg same).trans inTable)

private theorem registerTags_knows (handlers : UInt8 → Handler Memory) {all : List Packet}
    (registrable : Registrable all) {packets : List Packet}
    (among : ∀ packet ∈ packets, packet ∈ all) {responder : Responder Memory}
    (built : responder.table.Built)
    (known : ∀ present ∈ responder.table.entries, present.command ∈ all.map Packet.tag) :
    ∃ after, registerTags handlers packets responder = .ok after ∧
      after.protocol = responder.protocol ∧
      ∀ packet ∈ all, packet ∈ packets ∨
      responder.table.find? packet.tag = some (packet.entry handlers) →
        after.table.find? packet.tag = some (packet.entry handlers) := by
  induction packets generalizing responder with
  | nil =>
      refine ⟨responder, rfl, rfl, ?_⟩
      intro packet _ found
      simpa using found
  | cons packet rest induction =>
      rw [List.forall_mem_cons] at among
      have isKnown : packet.tag ∈ all.map Packet.tag := List.mem_map_of_mem among.1
      obtain ⟨table, done⟩ : ∃ table,
          responder.table.register (packet.entry handlers) = .ok table :=
        built.keyed.register_of_few (registrable.short packet among.1) known
          isKnown registrable.few
      have isOk : responder.register packet.tag packet.data.length (handlers packet.tag) =
          .ok { responder with table } := register_ok done
      let middle : Responder Memory := { responder with table }
      have stillBuilt : middle.table.Built := .registered built done
      have stillKnown : ∀ present ∈ middle.table.entries,
          present.command ∈ all.map Packet.tag := by
        intro present member
        rcases CommandTable.mem_of_register done member with ⟨rfl, _⟩ | inTable
        · exact isKnown
        · exact known present inTable
      rcases induction among.2 stillBuilt stillKnown with
        ⟨after, registered, sameProtocol, found⟩
      refine ⟨after, ?_, sameProtocol, ?_⟩
      · rw [registerTags, isOk]
        exact registered
      · intro other member knownBefore
        apply found other member
        exact known_of_register registrable among.1 member done knownBefore

def Knows (responder : Responder Memory) (handlers : UInt8 → Handler Memory)
    (packets : List Packet) : Prop :=
  ∀ packet ∈ packets, responder.table.find? packet.tag = some (packet.entry handlers)

/-! ## Receiving -/

structure TakesUp (responder : Responder (Bench Memory))
    (handlers : UInt8 → Handler Memory) (packet : Packet) (rest : List UInt8)
    (link : Link capacity (Bench Memory)) (poll : Poll)
    (after : Link capacity (Bench Memory)) : Prop where
  carriesOut : poll.CarriesOut responder.protocol packet.tag.toNat (handlers packet.tag)
    packet.request link.world after.world
  left : after.toCome = rest
  wellFormed : after.staged.WellFormed
  gapless : after.world.line.Gapless

private theorem poll_takesUp {responder : Responder Memory}
    (text : responder.protocol.isText = true) {handlers : UInt8 → Handler Memory}
    {packet : Packet} (short : packet.IsShort)
    (found : responder.table.find? packet.tag = some (packet.entry handlers))
    {link : Link capacity (Bench Memory)} (wellFormed : link.staged.WellFormed)
    (gapless : link.world.line.Gapless) (fits : 2 * packet.data.length + 2 ≤ capacity)
    {sender : Protocol} (senderText : sender.isText = true) {rest : List UInt8}
    (comes : link.toCome = sender.form packet ++ rest) :
    let polled := responder.attended.poll link
    responder.attended.TakesUp handlers packet rest link polled.1 polled.2 := by
  have attends := responder.attended_attends
  have attendedFound : responder.attended.table.find? (packet.frame short).command =
      some _ := attended_of_found found
  have written : (packet.frame short).Written responder.attended.protocol
      (sender.form packet) :=
    Packet.written_frame short senderText text
  have expected : responder.attended.Expects (packet.frame short) :=
    expects_of_found attendedFound rfl
  have formFits : (sender.form packet).length ≤ capacity := by
    rw [Protocol.length_form_of_isText senderText]
    exact fits
  have positive : 0 < capacity := by omega
  rcases poll_of_written positive wellFormed gapless written expected formFits comes with
    ⟨middle, polled, stillWellFormed, left, read, stillGapless⟩
  have carriesOut := answer_frame_carriesOut attendedFound rfl rfl read.onlyReads
  have kept := answer_keeps_deliveries attends (.frame (packet.frame short)) middle.world
  rw [polled, Poll.ofResult_lift]
  exact
    { carriesOut := carriesOut.of_readFrom read
      left := (toCome_answered attends _ middle).trans left
      wellFormed := stillWellFormed
      gapless := stillGapless.congr kept.1 kept.2 }

inductive CarriesOutEach (protocol : Protocol) (handlers : UInt8 → Handler Memory) :
    List Packet → Bench Memory → List Poll → Bench Memory → Prop
  | nothing {bench} : CarriesOutEach protocol handlers [] bench [] bench
  | next {packet rest before poll middle polls after}
      (carriesOut : poll.CarriesOut protocol packet.tag.toNat (handlers packet.tag)
        packet.request before middle)
      (later : CarriesOutEach protocol handlers rest middle polls after) :
      CarriesOutEach protocol handlers (packet :: rest) before (poll :: polls) after

namespace CarriesOutEach

variable {protocol : Protocol} {handlers : UInt8 → Handler Memory} {packets : List Packet}
  {before after : Bench Memory} {polls : List Poll}

theorem calls (each : CarriesOutEach protocol handlers packets before polls after) :
    polls.map (fun poll => poll.log.filter Event.isCall) =
      packets.map fun packet => [.called packet.tag.toNat packet.request []] := by
  induction each with
  | nothing => rfl
  | next carriesOut _ induction =>
      rw [List.map_cons, List.map_cons, carriesOut.calls, induction]

private theorem unrejected
    (each : CarriesOutEach protocol handlers packets before polls after) :
    ∀ poll ∈ polls, ∀ reason, poll.result ≠ .ok (.rejected reason) := by
  induction each with
  | nothing => simp
  | next carriesOut _ induction =>
      exact List.forall_mem_cons.mpr ⟨carriesOut.result_ne.1, induction⟩

end CarriesOutEach

structure Relays (responder : Responder (Bench Memory))
    (handlers : UInt8 → Handler Memory) (packets : List Packet)
    (link : Link capacity (Bench Memory)) (polls : List Poll)
    (after : Link capacity (Bench Memory)) : Prop where
  carriesOut : CarriesOutEach responder.protocol handlers packets link.world
    polls after.world
  left : after.toCome = []
  wellFormed : after.staged.WellFormed
  gapless : after.world.line.Gapless

private theorem polls_relay {responder : Responder Memory}
    (text : responder.protocol.isText = true) {handlers : UInt8 → Handler Memory}
    {packets : List Packet} (short : ∀ packet ∈ packets, packet.IsShort)
    (knows : responder.Knows handlers packets) {link : Link capacity (Bench Memory)}
    (wellFormed : link.staged.WellFormed) (gapless : link.world.line.Gapless)
    (fits : ∀ packet ∈ packets, 2 * packet.data.length + 2 ≤ capacity) {sender : Protocol}
    (senderText : sender.isText = true)
    (comes : link.toCome = packets.flatMap sender.form) :
    let run := responder.attended.polls packets.length link
    responder.attended.Relays handlers packets link run.1 run.2 := by
  induction packets generalizing link with
  | nil => exact ⟨.nothing, comes, wellFormed, gapless⟩
  | cons packet rest induction =>
      rw [Knows, List.forall_mem_cons] at knows
      rw [List.forall_mem_cons] at short fits
      rw [List.flatMap_cons] at comes
      have first :=
        poll_takesUp text short.1 knows.1 wellFormed gapless fits.1 senderText comes
      have later :=
        induction short.2 knows.2 first.wellFormed first.gapless fits.2 first.left
      rw [List.length_cons, polls_succ]
      exact ⟨.next first.carriesOut later.carriesOut, later.left,
        later.wellFormed, later.gapless⟩

structure HandsOn (responder : Responder (Bench Memory))
    (handlers : UInt8 → Handler Memory) (packets : List Packet)
    (link : Link capacity (Bench Memory)) (polls : List Poll)
    (after : Link capacity (Bench Memory)) : Prop where
  carriesOut : CarriesOutEach responder.protocol handlers packets link.world
    polls after.world
  /-- The handlers are given the packets in their order, one in each poll, and nothing
  else. -/
  calls : polls.map (fun poll => poll.log.filter Event.isCall) =
    packets.map fun packet => [.called packet.tag.toNat packet.request []]
  unrejected : ∀ poll ∈ polls, ∀ reason, poll.result ≠ .ok (.rejected reason)
  nothingStaged : after.staged.size = 0
  nothingPending : after.world.line.pending = []
  /-- Another poll finds the line at its end. -/
  ends : (responder.poll after).1.result =
    .error (if after.world.line.endless then .stopped .endlessWait
      else .failed .endOfStream)

private theorem Relays.handsOn {responder : Responder (Bench Memory)}
    {handlers : UInt8 → Handler Memory} {packets : List Packet}
    {link after : Link capacity (Bench Memory)} {polls : List Poll}
    (relays : responder.Relays handlers packets link polls after)
    (positive : 0 < capacity) :
    responder.HandsOn handlers packets link polls after := by
  have nothingLeft := List.append_eq_nil_iff.mp relays.left
  have nothingStaged : after.staged.size = 0 := by
    rw [← relays.wellFormed.length_toList, nothingLeft.1]
    rfl
  exact
    { carriesOut := relays.carriesOut
      calls := relays.carriesOut.calls
      unrejected := relays.carriesOut.unrejected
      nothingStaged
      nothingPending := nothingLeft.2
      ends :=
        (poll_of_nothing responder positive relays.wellFormed relays.gapless
          relays.left).1 }

section Relaying

variable {SenderMemory : Type} {senderCapacity : Nat}

/-- What the packets of a sender come to. All of them are sent, and whatever portions the
bytes come in, a receiver that registers each tag with the length of its data hands on one
packet after the other. Sender and receiver may speak different revisions of the text
protocol. -/
theorem sent_packets_handed_on (sender : Responder SenderMemory)
    (senderText : sender.protocol.isText = true)
    {source : Link senderCapacity (Bench SenderMemory)}
    (sourceWellFormed : source.staged.WellFormed)
    (faultless : source.world.line.Faultless) {packets : List Packet}
    (registrable : Registrable packets) (receiver : Responder Memory)
    (receiverText : receiver.protocol.isText = true)
    (unregistered : receiver.table = .empty) (handlers : UInt8 → Handler Memory)
    (positive : 0 < capacity)
    (fits : ∀ packet ∈ packets, 2 * packet.data.length + 2 ≤ capacity)
    {link : Link capacity (Bench Memory)} (wellFormed : link.staged.WellFormed)
    (gapless : link.world.line.Gapless)
    (comes : link.toCome =
      (sender.attended.calls (packets.map .put) source).1.flatMap Report.bytes) :
    List.Forall₂ (fun packet report => ∃ log,
      report = Report.put packet (.ok ()) log) packets
        (sender.attended.calls (packets.map .put) source).1 ∧
      ∃ registered, registerTags handlers packets receiver = .ok registered ∧
        let run := registered.attended.polls packets.length link
        registered.attended.HandsOn handlers packets link run.1 run.2 := by
  have sent := sender.puts_send registrable.short sourceWellFormed faultless
  have built : receiver.table.Built := by
    rw [unregistered]
    exact .empty
  have noneKnown : ∀ present ∈ receiver.table.entries,
      present.command ∈ packets.map Packet.tag := by
    rw [unregistered]
    intro present member
    cases member
  rcases registerTags_knows handlers registrable (fun _ member => member) built
    noneKnown with ⟨registered, done, sameProtocol, found⟩
  have text : registered.protocol.isText = true := by
    rw [sameProtocol]
    exact receiverText
  have knows : registered.Knows handlers packets :=
    fun packet member => found packet member (.inl member)
  rw [sent.2] at comes
  have relays :=
    polls_relay text registrable.short knows wellFormed gapless fits senderText comes
  exact ⟨sent.1, registered, done, relays.handsOn positive⟩

end Relaying

/-- A line feed, a digit and the version command as tags, and the line feed once more. -/
def oddlyTagged : List Packet :=
  [{ tag := '\n'.toUInt8, data := [0xAB] }, { tag := '4'.toUInt8, data := [] },
    { tag := '\n'.toUInt8, data := [0x0D] },
    { tag := versionCommand, data := [0x0A, 0xFF] }]

/-- A link that receives these packets in four portions, on a ring that is just large
enough. -/
def oddlyPortioned : Link 6 (Bench Unit) where
  staged := { cells := #v[0, 0, 0, 0, 0, 0], start := 4, size := 0 }
  world :=
    { Bench.plain with
      line :=
        { Bench.plain.line with
          deliveries :=
            ["\nA", "B\n4\n\n0D", "\nv0", "AFF\n"].map fun portion =>
              .bytes (portion.toList.map Char.toUInt8)
          readLimit := some 3 } }

theorem oddlyTagged_handed_on :
    let sender : Responder Unit := ofProtocol .v1_1
    let receiver : Responder Unit := (ofProtocol .v1_0).answeringVersion
    let source : Link 1 (Bench Unit) := .fresh Bench.plain
    let handlers : UInt8 → Handler Unit := fun status _ reply => pure { status, reply }
    Registrable oddlyTagged ∧ (∀ packet ∈ oddlyTagged, 2 * packet.data.length + 2 ≤ 6) ∧
      source.world.line.Faultless ∧ oddlyPortioned.world.line.Gapless ∧
      oddlyPortioned.toCome =
      (sender.attended.calls (oddlyTagged.map .put) source).1.flatMap Report.bytes ∧
      ∃ registered, registerTags handlers oddlyTagged receiver = .ok registered ∧
        let run := registered.attended.polls 4 oddlyPortioned
        registered.attended.HandsOn handlers oddlyTagged oddlyPortioned run.1 run.2 := by
  intro sender receiver source handlers
  have short : ∀ packet ∈ oddlyTagged, packet.IsShort := by
    simp [oddlyTagged, Packet.IsShort, maxPayload]
  have registrable : Registrable oddlyTagged := ⟨short, by decide, by decide⟩
  have fits : ∀ packet ∈ oddlyTagged, 2 * packet.data.length + 2 ≤ 6 := by decide
  have faultless : source.world.line.Faultless := Bench.plain_faultless
  have gapless : oddlyPortioned.world.line.Gapless :=
    ⟨by simp [Line.Flows, oddlyPortioned], by decide⟩
  have comes : oddlyPortioned.toCome =
      (sender.attended.calls (oddlyTagged.map .put) source).1.flatMap Report.bytes := by
    decide +kernel
  have wellFormed : oddlyPortioned.staged.WellFormed := ⟨by decide, by decide⟩
  have handedOn :=
    sent_packets_handed_on sender rfl StagingBuffer.wellFormed_empty faultless
      registrable receiver rfl
    rfl handlers (by decide) fits wellFormed gapless comes
  exact ⟨registrable, fits, faultless, gapless, comes, handedOn.2⟩

end Responder

end TriggerBench
