import TriggerBench.Proofs.Answering

/-! # Bounds of outgoing packets

Data that is too long is refused before the port is called. Any other packet has room in
every array that it passes through, so that only the port itself can keep it from being
sent. Since nothing that is answered is too long, serving never fails for that reason.
-/

namespace TriggerBench

variable {World : Type}

/-- Data that is too long is refused, whatever the port. -/
theorem Protocol.send_of_long (protocol : Protocol) (port : Port World) (tag : UInt8)
    {data : List UInt8} (long : maxPayload < data.length) :
    protocol.send port tag data = throw (.failed .payloadTooLong) := by
  simp only [send, pieces, if_pos long]

/-! ## Why serving fails -/

namespace Responder

variable {capacity : Nat} {responder : Responder World} {port : Port World}

private theorem release_error {link after : Link capacity World} {count : Nat}
    {reason : Interruption} (ran : Link.release count link = .error reason after) :
    ∃ stop, reason = .stopped stop := by
  cases released : link.staged.release? ⟨count⟩ with
  | some staged =>
      rw [Link.release_run released] at ran
      cases ran
  | none =>
      rw [Link.release, get_bind] at ran
      simp only [released] at ran
      cases ran
      exact ⟨_, rfl⟩

private theorem refill_error {link after : Link capacity World} {reason : Interruption}
    (ran : Link.refill port link = .error reason after) :
    (∃ stop, reason = .stopped stop) ∨ ∃ region, link.staged.room? = some region ∧
      after.staged = link.staged ∧
      port.Starves region.length link.world reason after.world := by
  cases room : link.staged.room? with
  | none =>
      rw [Link.refill, get_bind] at ran
      simp only [room] at ran
      cases ran
      exact .inl ⟨_, rfl⟩
  | some region =>
      rw [Link.refill_run port room] at ran
      split at ran
      case h_1 => cases ran
      case h_2 read =>
          cases ran
          exact .inr ⟨region, rfl, rfl, .ended read⟩
      case h_3 read =>
          cases ran
          exact .inr ⟨region, rfl, rfl, .failed read⟩
      case h_4 read =>
          cases ran
          exact .inl ⟨_, rfl⟩

theorem turn_error {link after : Link capacity World} {reason : Interruption}
    (ran : responder.turn port link = .error reason after) :
    (∃ stop, reason = .stopped stop) ∨
      ∃ region, link.staged.isFull = false ∧ link.staged.room? = some region ∧
      after.staged = link.staged ∧
        port.Starves region.length link.world reason after.world := by
  cases found : responder.examine link.staged.toList with
  | some examined =>
      rw [turn_of_unit found] at ran
      rcases error_of_bind ran with releasing | ⟨_, _, _, handing⟩
      · exact .inl (release_error releasing)
      · cases handing
  | none =>
      cases full : link.staged.isFull with
      | true =>
          rw [turn_of_full found full] at ran
          cases ran
      | false =>
          rw [turn_of_waiting found full] at ran
          rcases error_of_bind ran with refilling | ⟨_, _, _, handing⟩
          · rcases refill_error refilling with stopped | ⟨region, starved⟩
            · exact .inl stopped
            · exact .inr ⟨region, rfl, starved⟩
          · cases handing

private theorem receive_error {link after : Link capacity World} {reason : Interruption}
    (ran : responder.receive port link = .error reason after) :
    (∃ stop, reason = .stopped stop) ∨ ∃ wanted before,
      port.Starves wanted before reason after.world := by
  have ended := responder.receive_ended port link
  rw [ran] at ended
  cases ended with
  | interrupted _ turning =>
      rcases turn_error turning with stopped | ⟨region, _, _, _, starves⟩
      · exact .inl stopped
      · exact .inr ⟨region.length, _, starves⟩
  | outOfTurns _ => exact .inl ⟨_, rfl⟩

private theorem settle_error {received : Received} {world after : World}
    {reason : Interruption}
    (ran : responder.settle received world = .error reason after) :
    ∃ stop, reason = .stopped stop := by
  by_cases calls : responder.Calls received
  · rcases calls with ⟨frame, entry, rfl, found, fits⟩
    rw [settle_of_found found fits] at ran
    rcases error_of_bind ran with handling | ⟨_, _, _, settling⟩
    · rcases error_of_ofAction handling with ⟨stop, isStop, _⟩
      exact ⟨stop, isStop⟩
    · cases settling
  · rcases settle_of_not_calls calls with ⟨packets, outcome, settles, _⟩
    rw [settles] at ran
    cases ran

private theorem settle_isShort {received : Received} {world after : World}
    {packets : List Packet} {outcome : Outcome}
    (ran : responder.settle received world = .ok (packets, outcome) after) :
    ∀ packet ∈ packets, packet.IsShort := by
  by_cases calls : responder.Calls received
  · rcases calls with ⟨frame, entry, rfl, found, fits⟩
    rw [settle_of_found found fits] at ran
    rcases ok_of_bind ran with ⟨answer, middle, _, settling⟩
    cases settling
    exact Protocol.acknowledgement_isShort _ answer
  · rcases settle_of_not_calls calls with ⟨known, knownOutcome, settles, short⟩
    rw [settles] at ran
    cases ran
    exact short

theorem answer_error {received : Received} {world after : World} {reason : Interruption}
    (ran : responder.answer port received world = .error reason after) :
    (∃ stop, reason = .stopped stop) ∨ ∃ before, port.Refuses reason before after := by
  rw [answer_eq] at ran
  rcases error_of_bind ran with
    settling | ⟨⟨packets, outcome⟩, middle, settled, answering⟩
  · exact .inl (settle_error settling)
  · rcases error_of_bind answering with sending | ⟨_, _, _, handing⟩
    · have sent :=
        port.sent_accounts.sendPackets responder.protocol (settle_isShort settled) middle
      rw [sending] at sent
      cases sent with
      | cut _ _ refuses => exact .inr ⟨_, refuses⟩
    · cases handing

/-- Serving ends without a result only where something stops for good, a read leaves it
without bytes, or the port refuses a call that sends. -/
theorem serveOne_error {link after : Link capacity World} {reason : Interruption}
    (ran : responder.serveOne port link = .error reason after) :
    (∃ stop, reason = .stopped stop) ∨
      (∃ wanted before, port.Starves wanted before reason after.world) ∨
      ∃ before, port.Refuses reason before after.world := by
  rcases error_of_bind ran with receiving | ⟨received, middle, _, answering⟩
  · rcases receive_error receiving with stopped | starves
    · exact .inl stopped
    · exact .inr (.inl starves)
  · rcases error_of_lift answering with ⟨world, answered, isAfter⟩
    rcases answer_error answered with stopped | refuses
    · exact .inl stopped
    · rw [isAfter]
      exact .inr (.inr refuses)

end Responder

/-! ## The arrays that a packet passes through -/

/-- The arrays that a stuffed packet is built in are large enough for it: the one that
holds the packet before stuffing at its checksum, and the one that holds the stuffed form
at the delimiter behind it. -/
structure ResponsePacket.Fits (tag : UInt8) (data : List UInt8)
    (form : List UInt8) : Prop where
  rendered : stuffed tag data = .ok form
  rawLength : (raw tag data).length = data.length + 3
  inRaw : (raw tag data).length ≤ longestRaw
  formLength : form.length = data.length + 4
  inRendered : form.length ≤ longestStuffed
  delimiterInCells : form.length < cells
  zeroFree : ∀ byte ∈ form, byte ≠ 0

theorem ResponsePacket.fits (tag : UInt8) {data : List UInt8}
    (short : data.length ≤ maxPayload) :
    Fits tag data (Stuffing.encode (raw tag data)) where
  rendered := stuffed_of_short tag short
  rawLength := length_raw tag data
  inRaw := by
    rw [length_raw, longestRaw]
    exact Nat.add_le_add_right short 3
  formLength := length_encode_raw tag short
  inRendered := by
    rw [length_encode_raw tag short]
    simp only [longestStuffed, longestRaw]
    omega
  delimiterInCells := by
    rw [length_encode_raw tag short]
    simp only [cells, longestStuffed, longestRaw]
    omega
  zeroFree := Stuffing.zero_free_encode _

structure OutgoingFits (World : Type) (protocol : Protocol) (tag : UInt8)
    (data : List UInt8) : Prop where
  /-- Sending fails for the length of the data exactly if there is more of it than a
  payload may hold. -/
  refused_iff : ∀ (port : Port World) (before : World),
    (∃ after, protocol.send port tag data before =
      .error (.failed .payloadTooLong) after) ↔ maxPayload < data.length
  /-- Then the port is not called. -/
  uncalled : maxPayload < data.length →
    ∀ port : Port World, protocol.send port tag data = throw (.failed .payloadTooLong)
  /-- Shorter data goes out, unless the port refuses a call. -/
  sent : data.length ≤ maxPayload → ∀ (port : Port World) (before : World),
    port.Sent (protocol.form { tag, data }) before (protocol.send port tag data before)
  /-- Under the stuffed protocol it goes out as one piece, for which all arrays are large
  enough, and only the last byte of which is zero. -/
  stuffed : data.length ≤ maxPayload → ∃ form, ResponsePacket.Fits tag data form ∧
    (protocol = .v2_1 → protocol.form { tag, data } = form ++ [0] ∧
      protocol.pieces tag data = .ok [form ++ [0]] ∧
      (form ++ [0]).length = data.length + 5)
  /-- Whatever the handlers are, serving never fails for the length of data. -/
  served :
    ∀ (capacity : Nat) (responder : Responder World) (port : Port World) (link
      after : Link capacity World),
    responder.serveOne port link ≠ .error (.failed .payloadTooLong) after

/-- Data goes out exactly if it is no longer than a payload may be, and then it fits
wherever it passes through. -/
theorem Responder.outgoing_packets_fit (protocol : Protocol) (tag : UInt8)
    (data : List UInt8) :
    OutgoingFits World protocol tag data where
  refused_iff port before := by
    constructor
    · rintro ⟨after, failed⟩
      apply Nat.not_le.mp
      intro short
      have sent :=
        port.sent_accounts.send protocol
          (show Packet.IsShort { tag, data } from short) before
      rw [failed] at sent
      cases sent with
      | cut _ _ refuses => exact refuses.ne_payloadTooLong rfl
    · intro long
      rw [protocol.send_of_long port tag long]
      exact ⟨before, rfl⟩
  uncalled long port := protocol.send_of_long port tag long
  sent short port before :=
    port.sent_accounts.send protocol (show Packet.IsShort { tag, data } from short) before
  stuffed short := by
    have isShort : Packet.IsShort { tag, data } := short
    have fits := ResponsePacket.fits tag short
    refine ⟨_, fits, ?_⟩
    rintro rfl
    refine ⟨rfl, Protocol.pieces_of_packets rfl isShort, ?_⟩
    rw [List.length_append, fits.formLength]
    rfl
  served capacity responder port link after failed := by
    rcases serveOne_error failed with
      ⟨stop, isStop⟩ | ⟨wanted, before, starves⟩ | ⟨before, refuses⟩
    · cases isStop
    · cases starves
    · exact refuses.ne_payloadTooLong rfl

theorem Responder.reply_fits_and_long_reply_refused :
    ([0x41, 0x00] : List UInt8).length ≤ maxPayload ∧
      maxPayload < (List.replicate 65 (0x41 : UInt8)).length ∧
      Port.silent.Sent [0x04, 0x72, 0x02, 0x41, 0x02, 0x3F, 0x00] ()
        (Protocol.v2_1.send Port.silent replyTag [0x41, 0x00] ()) ∧
      Protocol.v2_1.send Port.silent replyTag (List.replicate 65 0x41) =
        throw (.failed .payloadTooLong) := by
  have short : ([0x41, 0x00] : List UInt8).length ≤ maxPayload := by decide
  have long : maxPayload < (List.replicate 65 (0x41 : UInt8)).length := by decide
  have bytes : Protocol.v2_1.form { tag := replyTag, data := [0x41, 0x00] } =
      [0x04, 0x72, 0x02, 0x41, 0x02, 0x3F, 0x00] := by
    decide +kernel
  refine ⟨short, long, ?_, ?_⟩
  · rw [← bytes]
    exact (outgoing_packets_fit .v2_1 replyTag [0x41, 0x00]).sent short Port.silent ()
  · exact (outgoing_packets_fit .v2_1 replyTag (List.replicate 65 0x41)).uncalled
      long Port.silent

end TriggerBench
