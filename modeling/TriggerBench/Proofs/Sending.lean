import TriggerBench.Proofs.AnswerPackets
import TriggerBench.Proofs.BlockChains

/-! # Sending

A packet is sent in pieces, and each piece in as many write calls as the port makes of it.
Either all bytes go out, or sending ends with the call that the port refuses, after a part
of them.
-/

namespace TriggerBench

variable {World : Type}

/-! ## Packets on the wire -/

namespace ResponsePacket

theorem length_raw (tag : UInt8) (data : List UInt8) :
    (raw tag data).length = data.length + 3 := by
  simp [raw]

theorem length_encode_raw (tag : UInt8) {data : List UInt8}
    (short : data.length ≤ maxPayload) :
    (Stuffing.encode (raw tag data)).length = data.length + 4 := by
  have inBlock : (raw tag data).length < Stuffing.longestBlock := by
    rw [length_raw]
    simp only [maxPayload] at short
    simp only [Stuffing.longestBlock]
    omega
  rw [Stuffing.length_encode inBlock, length_raw]

theorem stuffed_of_short (tag : UInt8) {data : List UInt8}
    (short : data.length ≤ maxPayload) :
    stuffed tag data = .ok (Stuffing.encode (raw tag data)) := by
  have inCells : ¬cells < (Stuffing.encode (raw tag data)).length := by
    rw [length_encode_raw tag short]
    simp only [cells, longestStuffed, longestRaw]
    omega
  simp only [stuffed, if_neg (Nat.not_lt.mpr short), if_neg inCells]

end ResponsePacket

def Packet.IsShort (packet : Packet) : Prop :=
  packet.data.length ≤ maxPayload

def Protocol.form (protocol : Protocol) (packet : Packet) : List UInt8 :=
  if protocol.isText then (ResponsePacket.line packet.tag packet.data).flatten
  else Stuffing.encode (ResponsePacket.raw packet.tag packet.data) ++ [0]

/-- A stuffed packet is sent in one piece. -/
theorem Protocol.pieces_of_packets {protocol : Protocol}
    (packets : protocol.isText = false) {packet : Packet} (short : packet.IsShort) :
    protocol.pieces packet.tag packet.data = .ok [protocol.form packet] := by
  have inCells : (Stuffing.encode (ResponsePacket.raw packet.tag packet.data)).length <
      ResponsePacket.cells := by
    rw [ResponsePacket.length_encode_raw packet.tag short]
    simp only [Packet.IsShort] at short
    simp only [ResponsePacket.cells, ResponsePacket.longestStuffed,
      ResponsePacket.longestRaw]
    omega
  simp only [pieces, form, if_neg (Nat.not_lt.mpr short), packets, Bool.false_eq_true,
    if_false, ResponsePacket.stuffed_of_short packet.tag short, if_pos inCells]

private theorem Protocol.pieces_of_isShort (protocol : Protocol) {packet : Packet}
    (short : packet.IsShort) :
    ∃ pieces, protocol.pieces packet.tag packet.data = .ok pieces ∧
      pieces.flatten = protocol.form packet := by
  cases text : protocol.isText with
  | true =>
      refine ⟨ResponsePacket.line packet.tag packet.data, ?_, ?_⟩
      · simp only [pieces, if_neg (Nat.not_lt.mpr short), text, if_true]
      · simp only [form, text, if_true]
  | false => exact ⟨_, pieces_of_packets text short, by simp⟩

/-! ## Accounts of what goes out -/

namespace Port

/-- An account of what sending some bytes comes to, which holds of packets as soon as it
holds of the calls that they are made of. -/
structure Accounts (port : Port World) (account : List UInt8 → World →
    EStateM.Result Interruption World Unit → Prop) : Prop where
  nothing : ∀ world, account [] world (.ok () world)
  bind : ∀ {bytes more world} {first second : Activity World Unit},
    account bytes world (first world) → (∀ middle, account more middle (second middle)) →
    account (bytes ++ more) world ((first >>= fun _ => second) world)
  sendAll : ∀ bytes world, account bytes world (port.sendAll bytes world)
  finish : ∀ world, account [] world (port.finish world)

namespace Accounts

variable {port : Port World}
  {account : List UInt8 → World → EStateM.Result Interruption World Unit → Prop}
  (accounts : port.Accounts account)
include accounts

theorem sendPieces (pieces : List (List UInt8)) (world : World) :
    account pieces.flatten world (port.sendPieces pieces world) := by
  induction pieces generalizing world with
  | nil => exact accounts.nothing world
  | cons piece rest induction =>
      exact accounts.bind (accounts.sendAll piece world) induction

theorem send (protocol : Protocol) {packet : Packet} (short : packet.IsShort)
    (world : World) :
    account (protocol.form packet) world
      (protocol.send port packet.tag packet.data world) := by
  rcases protocol.pieces_of_isShort short with ⟨pieces, isPieces, bytes⟩
  simp only [Protocol.send, isPieces]
  rw [← bytes, ← List.append_nil pieces.flatten]
  exact accounts.bind (accounts.sendPieces pieces world) accounts.finish

theorem sendPackets (protocol : Protocol) {packets : List Packet}
    (short : ∀ packet ∈ packets, packet.IsShort) (world : World) :
    account (packets.flatMap protocol.form) world
      (protocol.sendPackets port packets world) := by
  induction packets generalizing world with
  | nil => exact accounts.nothing world
  | cons packet rest induction =>
      rw [List.forall_mem_cons] at short
      exact accounts.bind (accounts.send protocol short.1 world) (induction short.2)

end Accounts

end Port

def ofCall {State : Type} (call : PortCall) :
    EStateM.Result Stop State Bool → EStateM.Result Interruption State Unit
  | .ok true after => .ok () after
  | .ok false after => .error (.failed (.port call)) after
  | .error stop after => .error (.stopped stop) after

private theorem ofCall_run {State : Type} (call : PortCall) (action : Action State Bool)
    (state : State) :
    (do if ← Activity.ofAction action then
      pure () else throw (.failed (.port call)) : Activity State Unit) state =
      ofCall call (action state) := by
  change EStateM.bind _ _ state = _
  simp only [EStateM.bind, Activity.ofAction]
  cases action state with
  | ok done after => cases done <;> rfl
  | error stop after => rfl

/-! ## Calls of any port -/

namespace Port

variable {port : Port World}

/-- Calls that send and go well: each write takes a portion of what it is offered, and
flushes may come in between. -/
inductive Accepts (port : Port World) : List UInt8 → World → World → Prop
  | nothing {world} : Accepts port [] world world
  | portion {byte more count rest before middle after}
      (written : port.write (byte :: more) before = .ok (some (count + 1)) middle)
      (behind : Accepts port rest middle after) :
      Accepts port ((byte :: more).take (count + 1) ++ rest) before after
  | flushed {rest before middle after} (flush : port.flush before = .ok true middle)
      (behind : Accepts port rest middle after) : Accepts port rest before after

inductive Refuses (port : Port World) : Interruption → World → World → Prop
  | write {byte rest before after}
      (written : port.write (byte :: rest) before = .ok none after) :
      Refuses port (.failed (.port .write)) before after
  | flush {before after} (flushed : port.flush before = .ok false after) :
      Refuses port (.failed (.port .flush)) before after
  | stalled {byte rest before after}
      (written : port.write (byte :: rest) before = .ok (some 0) after) :
      Refuses port (.stopped (.fault .stalledWrite)) before after
  | writeStopped {offered stop before after}
      (written : port.write offered before = .error stop after) :
      Refuses port (.stopped stop) before after
  | flushStopped {stop before after} (flushed : port.flush before = .error stop after) :
      Refuses port (.stopped stop) before after

/-- What sending some bytes comes to: all of them go out, or the port refuses one call
after it took a part. -/
inductive Sent (port : Port World) (bytes : List UInt8) (before : World) :
    EStateM.Result Interruption World Unit → Prop
  | complete {after} (accepts : port.Accepts bytes before after) :
      Sent port bytes before (.ok () after)
  | cut {part middle reason after} (accepts : port.Accepts part before middle)
      (isPart : part <+: bytes) (refuses : port.Refuses reason middle after) :
      Sent port bytes before (.error reason after)

theorem Accepts.trans {bytes more : List UInt8} {first second third : World}
    (accepts : port.Accepts bytes first second)
    (behind : port.Accepts more second third) :
    port.Accepts (bytes ++ more) first third := by
  induction accepts with
  | nothing => exact behind
  | portion written _ induction =>
      rw [List.append_assoc]
      exact .portion written (induction behind)
  | flushed flush _ induction => exact .flushed flush (induction behind)

private theorem Accepts.ofPortion {byte : UInt8} {more : List UInt8} {count : Nat}
    {before after : World}
    (written : port.write (byte :: more) before = .ok (some (count + 1)) after) :
    port.Accepts ((byte :: more).take (count + 1)) before after := by
  have accepts : port.Accepts ((byte :: more).take (count + 1) ++ []) before after :=
    .portion written .nothing
  rwa [List.append_nil] at accepts

theorem Refuses.ne_payloadTooLong {reason : Interruption} {before after : World}
    (refuses : port.Refuses reason before after) : reason ≠ .failed .payloadTooLong := by
  cases refuses <;> simp

theorem Sent.refused {bytes : List UInt8} {before after : World} {reason : Interruption}
    (refuses : port.Refuses reason before after) :
    port.Sent bytes before (.error reason after) :=
  .cut .nothing List.nil_prefix refuses

theorem Sent.behind {bytes more : List UInt8} {before middle : World}
    {result : EStateM.Result Interruption World Unit}
    (accepts : port.Accepts bytes before middle) (rest : port.Sent more middle result) :
    port.Sent (bytes ++ more) before result := by
  cases rest with
  | complete acceptsRest => exact .complete (accepts.trans acceptsRest)
  | cut acceptsPart isPart refuses =>
      exact .cut (accepts.trans acceptsPart)
        (List.prefix_append_right_inj bytes |>.mpr isPart) refuses

theorem Sent.bind {bytes more : List UInt8} {before : World}
    {first second : Activity World Unit} (sent : port.Sent bytes before (first before))
    (next : ∀ middle, port.Sent more middle (second middle)) :
    port.Sent (bytes ++ more) before ((first >>= fun _ => second) before) := by
  generalize ran : first before = result at sent
  cases sent with
  | complete accepts =>
      rw [bind_of_ok ran]
      exact .behind accepts (next _)
  | cut accepts isPart refuses =>
      rw [bind_of_error ran]
      exact .cut accepts (isPart.trans (List.prefix_append bytes more)) refuses

private theorem writeAllWithin_sent (port : Port World) {calls : Nat} {bytes : List UInt8}
    (enough : bytes.length ≤ calls) (before : World) :
    port.Sent bytes before (ofCall .write (port.writeAllWithin calls bytes before)) := by
  induction calls generalizing bytes before with
  | zero =>
      have nothing : bytes = [] := List.length_eq_zero_iff.mp (by omega)
      rw [nothing]
      exact .complete .nothing
  | succ calls induction =>
      cases bytes with
      | nil => exact .complete .nothing
      | cons byte rest =>
          rw [Writer.writeAllWithin]
          cases ran : port.write (byte :: rest) before with
          | error stop after =>
              rw [bind_of_error ran]
              exact .refused (.writeStopped ran)
          | ok written middle =>
              rw [bind_of_ok ran]
              rcases written with _ | _ | count
              · exact .refused (.write ran)
              · exact .refused (.stalled ran)
              · -- A call that goes well takes at least one byte, so that the calls
                -- granted do not run out.
                have enoughLeft : ((byte :: rest).drop (count + 1)).length ≤ calls := by
                  rw [List.length_drop]
                  omega
                have sent := Sent.behind (.ofPortion ran) (induction enoughLeft middle)
                rw [List.take_append_drop] at sent
                exact sent

private theorem sendAll_sent (port : Port World) (bytes : List UInt8) (before : World) :
    port.Sent bytes before (port.sendAll bytes before) := by
  rw [sendAll, ofCall_run]
  exact port.writeAllWithin_sent (Nat.le_refl _) before

private theorem finish_sent (port : Port World) (before : World) :
    port.Sent [] before (port.finish before) := by
  rw [finish, ofCall_run]
  cases ran : port.flush before with
  | error stop after => exact .refused (.flushStopped ran)
  | ok done after =>
      cases done with
      | true => exact .complete (.flushed ran .nothing)
      | false => exact .refused (.flush ran)

theorem sent_accounts (port : Port World) : port.Accounts port.Sent where
  nothing _ := .complete .nothing
  bind := Sent.bind
  sendAll := port.sendAll_sent
  finish := port.finish_sent

end Port

end TriggerBench
