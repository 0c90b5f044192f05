import TriggerBench.Proofs.BrokenPackets
import TriggerBench.Proofs.CheckBits

/-! # Error detection

Whether a corruption is caught is a matter of the flipped bits alone. The generator has a
constant term, so that it divides no burst of eight bits or fewer, and its order is 255,
so that it divides no two bits that are closer together. A corruption that reaches the
length byte is caught by the length, which has to account for the whole packet.
-/

namespace TriggerBench

namespace Checksum

/-- A position, counted from the most significant bit of the first byte, at which two
messages differ. -/
def Flipped (message corrupted : List UInt8) (position : Nat) : Prop :=
  (bitsOf message)[position]? ≠ (bitsOf corrupted)[position]?

instance (message corrupted : List UInt8) (position : Nat) :
    Decidable (Flipped message corrupted position) :=
  inferInstanceAs (Decidable (_ ≠ _))

def flips (message corrupted : List UInt8) : List Bool :=
  List.zipWith xor (bitsOf message) (bitsOf corrupted)

variable {message corrupted : List UInt8}

private theorem length_flips (sameLength : corrupted.length = message.length) :
    (flips message corrupted).length = 8 * message.length := by
  rw [flips, List.length_zipWith, length_bitsOf, length_bitsOf, sameLength, Nat.min_self]

private theorem getElem?_flips (sameLength : corrupted.length = message.length)
    (position : Nat) :
    (flips message corrupted)[position]? = some true ↔
      Flipped message corrupted position := by
  have asLong : (bitsOf message).length = (bitsOf corrupted).length := by
    rw [length_bitsOf, length_bitsOf, sameLength]
  rw [flips, Flipped, List.getElem?_zipWith]
  by_cases inside : position < (bitsOf message).length
  · rw [List.getElem?_eq_getElem inside, List.getElem?_eq_getElem (asLong ▸ inside)]
    simp
  · rw [List.getElem?_eq_none (Nat.not_lt.mp inside),
      List.getElem?_eq_none (asLong ▸ Nat.not_lt.mp inside)]
    simp

theorem Flipped.lt_length {position : Nat} (flipped : Flipped message corrupted position)
    (sameLength : corrupted.length = message.length) : position < 8 * message.length := by
  rw [← getElem?_flips sameLength] at flipped
  rw [← length_flips sameLength]
  exact (List.getElem?_eq_some_iff.mp flipped).1

private theorem takeBits_flips (sameLength : corrupted.length = message.length) :
    takeBits 0 (flips message corrupted) = ofBytes message ^^^ ofBytes corrupted := by
  have asLong : (bitsOf message).length = (bitsOf corrupted).length := by
    rw [length_bitsOf, length_bitsOf, sameLength]
  rw [ofBytes_eq_takeBits, ofBytes_eq_takeBits]
  exact takeBits_xor 0 0 asLong

/-! ## Bursts -/

private theorem eq_replicate_false {bits : List Bool}
    (clear : ∀ position : Nat, bits[position]? ≠ some true) :
    bits = List.replicate bits.length false := by
  apply List.eq_replicate_of_mem
  intro bit member
  rcases List.getElem?_of_mem member with ⟨position, found⟩
  cases bit with
  | false => rfl
  | true => exact absurd found (clear position)

private theorem takeBits_window (before : Nat) (window : List Bool) (behind : Nat) :
    takeBits 0 (List.replicate before false ++ window ++ List.replicate behind false) =
        0 ↔ takeBits 0 window = 0 := by
  rw [takeBits_append, takeBits_append, takeBits_replicate_false,
    takeBits_replicate_false, repeat_shift_zero, repeat_shift_eq_zero_iff]

/-- Eight bits leave nothing in the register only if none of them is set. -/
theorem clear_of_takeBits_eq_zero {window : List Bool} (eight : window.length = 8)
    (nothing : takeBits 0 window = 0) : window = List.replicate 8 false := by
  have known : ∀ b₀ b₁ b₂ b₃ b₄ b₅ b₆ b₇ : Bool,
      takeBits 0 [b₀, b₁, b₂, b₃, b₄, b₅, b₆, b₇] = 0 →
      [b₀, b₁, b₂, b₃, b₄, b₅, b₆, b₇] = List.replicate 8 false := by
    decide +kernel
  match window, eight with
  | [b₀, b₁, b₂, b₃, b₄, b₅, b₆, b₇], _ => exact known b₀ b₁ b₂ b₃ b₄ b₅ b₆ b₇ nothing

private theorem takeBits_burst_ne_zero {bits : List Bool} {start : Nat}
    (enough : 8 ≤ bits.length) (somewhere : ∃ position : Nat, bits[position]? = some true)
    (within : ∀ position : Nat, bits[position]? = some true →
      start ≤ position ∧ position < start + 8) :
    takeBits 0 bits ≠ 0 := by
  -- A burst at the very end is seen through a window that starts earlier, so that it
  -- holds eight bits.
  obtain ⟨first, whole, covers⟩ : ∃ first, first + 8 ≤ bits.length ∧
      ∀ position : Nat, bits[position]? = some true →
      first ≤ position ∧ position < first + 8 := by
    refine ⟨min start (bits.length - 8), by omega, fun position isSet => ?_⟩
    have inside : position < bits.length := (List.getElem?_eq_some_iff.mp isSet).1
    have bounds := within position isSet
    omega
  have eight : ((bits.drop first).take 8).length = 8 := by
    rw [List.length_take, List.length_drop]
    omega
  have clearBefore : bits.take first = List.replicate (bits.take first).length false := by
    apply eq_replicate_false
    intro position isSet
    rw [List.getElem?_take] at isSet
    split at isSet
    · have bounds := covers position isSet
      omega
    · cases isSet
  have clearBehind : (bits.drop first).drop 8 =
      List.replicate ((bits.drop first).drop 8).length false := by
    apply eq_replicate_false
    intro position isSet
    rw [List.getElem?_drop, List.getElem?_drop] at isSet
    have bounds := covers _ isSet
    omega
  have split : bits = List.replicate (bits.take first).length false ++
      (bits.drop first).take 8 ++
      List.replicate ((bits.drop first).drop 8).length false := by
    rw [← clearBefore, ← clearBehind, List.append_assoc, List.take_append_drop,
      List.take_append_drop]
  intro nothing
  rw [split, takeBits_window] at nothing
  have clear := clear_of_takeBits_eq_zero eight nothing
  rcases somewhere with ⟨position, isSet⟩
  have bounds := covers position isSet
  have inWindow : ((bits.drop first).take 8)[position - first]? = bits[position]? := by
    rw [List.getElem?_take_of_lt (by omega), List.getElem?_drop,
      Nat.add_sub_cancel' bounds.1]
  rw [isSet, clear, List.getElem?_replicate_of_lt (by omega)] at inWindow
  cases inWindow

/-! ## Pairs -/

/-- The order of the generator is 255: no fewer shifts bring a single bit back. -/
theorem repeat_shift_top_ne {distance : Nat} (positive : 0 < distance)
    (near : distance < 255) :
    Nat.repeat shift distance 0x80 ≠ 0x80 := by
  have known : ∀ distance : Fin 255, 0 < distance.val →
      Nat.repeat shift distance.val 0x80 ≠ 0x80 := by
    decide +kernel
  exact known ⟨distance, near⟩ positive

private theorem takeBits_pair_eq (between : Nat) :
    takeBits 0 (true :: List.replicate between false ++ [true]) =
      shift (Nat.repeat shift (between + 1) 0x80 ^^^ 0x80) := by
  have opened : takeBits 0 (true :: List.replicate between false) =
      Nat.repeat shift (between + 1) 0x80 := by
    have first : takeBit 0 true = shift 0x80 := by simp [takeBit]
    have rest := takeBits_replicate_false (takeBit 0 true) between
    rw [first, repeat_shift_shift] at rest
    rw [Nat.repeat, ← rest, ← first]
    rfl
  rw [takeBits_append, opened]
  rfl

private theorem takeBits_pair_ne_zero {bits : List Bool} {first second : Nat}
    (ordered : first < second) (near : second < first + 255)
    (exactly : ∀ position : Nat, bits[position]? = some true ↔
      position = first ∨ position = second) :
    takeBits 0 bits ≠ 0 := by
  have inside : second < bits.length :=
    (List.getElem?_eq_some_iff.mp ((exactly second).mpr (.inr rfl))).1
  have split : bits = List.replicate first false ++
      (true :: List.replicate (second - first - 1) false ++ [true]) ++
      List.replicate (bits.length - (second + 1)) false := by
    apply List.ext_getElem
    · simp only [List.length_append, List.length_cons, List.length_replicate,
        List.length_nil]
      omega
    · intro position isInside _
      have isSet : bits[position] = true ↔ position = first ∨ position = second := by
        rw [← exactly position, List.getElem?_eq_getElem isInside, Option.some.injEq]
      apply Bool.eq_iff_iff.mpr
      rw [isSet]
      simp only [List.getElem_append, List.getElem_cons, List.getElem_replicate,
        List.length_append, List.length_cons, List.length_replicate, List.length_nil]
      grind
  intro nothing
  rw [split, takeBits_window, takeBits_pair_eq, shift_eq_zero_iff,
    UInt8.xor_eq_zero_iff] at nothing
  exact repeat_shift_top_ne (by omega) (by omega) nothing

end Checksum

namespace CommandPacket

inductive Corruption (packet corrupted : List UInt8) : Prop
  /-- Bits are flipped within eight neighbouring positions, and nowhere else. -/
  | burst (start : Nat)
      (somewhere : ∃ position, Checksum.Flipped packet corrupted position)
      (within : ∀ position, Checksum.Flipped packet corrupted position →
        start ≤ position ∧ position < start + 8)
  /-- Exactly two bits are flipped, and they are fewer than 255 positions apart. -/
  | pair (first second : Nat) (ordered : first < second) (near : second < first + 255)
      (exactly : ∀ position, Checksum.Flipped packet corrupted position ↔
        position = first ∨ position = second)

variable {packet corrupted : List UInt8}

private theorem Corruption.ofBytes_ne (corruption : Corruption packet corrupted)
    (nonempty : packet ≠ []) (sameLength : corrupted.length = packet.length) :
    Checksum.ofBytes corrupted ≠ Checksum.ofBytes packet := by
  have positive : 0 < packet.length := List.length_pos_iff.mpr nonempty
  have enough : 8 ≤ (Checksum.flips packet corrupted).length := by
    rw [Checksum.length_flips sameLength]
    omega
  have leavesSome : Checksum.takeBits 0 (Checksum.flips packet corrupted) ≠ 0 := by
    cases corruption with
    | burst start somewhere within =>
        simp only [← Checksum.getElem?_flips sameLength] at somewhere within
        exact Checksum.takeBits_burst_ne_zero enough somewhere within
    | pair first second ordered near exactly =>
        simp only [← Checksum.getElem?_flips sameLength] at exactly
        exact Checksum.takeBits_pair_ne_zero ordered near exactly
  rw [Checksum.takeBits_flips sameLength] at leavesSome
  exact fun same => leavesSome (UInt8.xor_eq_zero_iff.mpr same.symm)

private theorem sums_iff (nonempty : packet ≠ []) :
    Sums packet ↔ Checksum.ofBytes packet = 0 := by
  rcases List.eq_nil_or_concat packet with nothing | ⟨body, check, isConcat⟩
  · exact absurd nothing nonempty
  · rw [isConcat, List.concat_eq_append, Sums, List.getLast?_concat, List.dropLast_concat,
      Option.some.injEq, eq_comm, Checksum.ofBytes_concat_eq_zero_iff]

private theorem read_of_corrupted {frame : Frame} (accepted : read packet = .ok frame)
    (sameLength : corrupted.length = packet.length)
    (corruption : Corruption packet corrupted) :
    read corrupted = .error (if corrupted[2]? = packet[2]? then .checksum
      else .length) := by
  have fits : ¬Misfits packet := by
    intro misfits
    rw [read_of_misfits misfits] at accepted
    cases accepted
  have enough : 4 ≤ packet.length := Nat.not_lt.mp fun short => fits (.inl short)
  have nonempty : packet ≠ [] := List.ne_nil_of_length_pos (by omega)
  have corruptedNonempty : corrupted ≠ [] := List.ne_nil_of_length_pos (by omega)
  split
  case isTrue sameClaim =>
      have corruptedFits : ¬Misfits corrupted := by
        rw [Misfits, sameLength, sameClaim]
        exact fits
      have sums : Checksum.ofBytes packet = 0 := by
        rw [← sums_iff nonempty]
        apply Classical.byContradiction
        intro wrong
        rw [(read_of_not_misfits fits).1 wrong] at accepted
        cases accepted
      apply (read_of_not_misfits corruptedFits).1
      rw [sums_iff corruptedNonempty, ← sums]
      exact corruption.ofBytes_ne nonempty sameLength
  case isFalse otherClaim =>
      apply read_of_misfits
      have claimedAt : 2 < packet.length := by omega
      have otherAt : 2 < corrupted.length := by omega
      refine .inr ⟨corrupted[2], List.getElem?_eq_getElem otherAt, .inr ?_⟩
      intro accounts
      have known : packet.length = packet[2].toNat + 4 := by
        apply Classical.byContradiction
        intro mismatch
        exact fits (.inr ⟨packet[2], List.getElem?_eq_getElem claimedAt, .inr mismatch⟩)
      apply otherClaim
      rw [List.getElem?_eq_getElem otherAt, List.getElem?_eq_getElem claimedAt,
        Option.some.injEq]
      apply UInt8.toNat_inj.mp
      omega

end CommandPacket

namespace Responder

variable {capacity : Nat} {World : Type}

/-- A packet that differs from an accepted one by a burst of at most eight bits or by two
bits fewer than 255 positions apart is never read: its length is found wrong if its length
byte has changed, and its checksum otherwise. Its stuffed form is turned away for that
reason, and neither a handler nor another read comes of it. -/
theorem rejects_corrupted_packets {packet corrupted : List UInt8} {frame : Frame}
    (accepted : CommandPacket.read packet = .ok frame)
    (sameLength : corrupted.length = packet.length)
    (corruption : CommandPacket.Corruption packet corrupted) :
    let reason : Rejection := if corrupted[2]? = packet[2]? then .checksum else .length
    CommandPacket.read corrupted = .error reason ∧
      ∀ (responder : Responder World) (port : Port World)
        (link : Link capacity World) (rest : List UInt8),
        responder.protocol = .v2_1 → link.Holds (Stuffing.encode corrupted) rest →
        ∃ staged : StagingBuffer capacity, staged.toList = rest ∧
          responder.receive port link = .ok (.dropped reason) { link with staged } ∧
          responder.serveOne port link =
            Link.worldComponent.lift (responder.reject port reason)
              { link with staged } := by
  have isRead := CommandPacket.read_of_corrupted accepted sameLength corruption
  refine ⟨isRead, ?_⟩
  intro responder port link rest packets holds
  have short : (Stuffing.encode corrupted).length ≤ frameCapacity := by
    have isForm := StuffedFrame.length_form_le frame
    rw [StuffedFrame.form, ← CommandPacket.eq_write_of_read accepted] at isForm
    have packetLength : packet.length ≤ maxPayload + 4 := by
      rw [CommandPacket.eq_write_of_read accepted, CommandPacket.length_write]
      exact Nat.add_le_add_right frame.payload.length_le 4
    have inBlock : packet.length < Stuffing.longestBlock :=
      Nat.lt_of_le_of_lt packetLength (by decide)
    rw [Stuffing.length_encode inBlock] at isForm
    rw [Stuffing.length_encode (sameLength ▸ inBlock), sameLength]
    exact isForm
  have verdict : StuffedFrame.verdict (Stuffing.encode corrupted) =
      .rejected (if corrupted[2]? = packet[2]? then .checksum else .length) := by
    have nonempty : (Stuffing.encode corrupted).isEmpty = false :=
      List.isEmpty_eq_false_iff.mpr (Stuffing.encode_ne_nil _)
    simp only [StuffedFrame.verdict, nonempty, Bool.false_eq_true, if_false,
      Nat.not_lt.mpr short, Stuffing.decode?_encode, isRead]
  rcases turn_of_holds packets port holds with ⟨staged, turned, _, _, left⟩
  rw [verdict] at turned
  have received := receive_of_turn turned
  refine ⟨staged, left, received, ?_⟩
  rw [serveOne, bind_of_ok received]
  rfl

end Responder

/-- The last half of the data byte and the first half of the checksum are flipped. -/
theorem CommandPacket.burst_at_checksum :
    Corruption [0x31, 0x00, 0x01, 0x41, 0x0B] [0x31, 0x00, 0x01, 0x4E, 0xFB] := by
  refine .burst 28 ⟨28, by decide⟩ ?_
  intro position flipped
  have inside : position < 40 := flipped.lt_length rfl
  have known : ∀ position : Fin 40,
      Checksum.Flipped [0x31, 0x00, 0x01, 0x41, 0x0B] [0x31, 0x00, 0x01, 0x4E, 0xFB]
        position.val → 28 ≤ position.val ∧ position.val < 28 + 8 := by
    decide +kernel
  exact known ⟨position, inside⟩ flipped

/-- A full ring whose contents wrap: a stuffed packet with a burst, its delimiter, and the
first byte of a next one. -/
def Link.battered : Link 8 Unit where
  staged :=
    { cells := #v[0x01, 0x4E, 0xFB, 0x00, 0x02, 0x02, 0x31, 0x04], start := 5, size := 8 }
  world := ()

private theorem Link.battered_holds :
    Link.battered.Holds (Stuffing.encode [0x31, 0x00, 0x01, 0x4E, 0xFB]) [0x02] where
  wellFormed := ⟨by decide, by decide⟩
  zeroFree := Stuffing.zero_free_encode _
  staged := by decide +kernel

theorem Responder.rejects_burst_at_checksum :
    CommandPacket.read [0x31, 0x00, 0x01, 0x41, 0x0B] =
        .ok { command := 0x31, subcommand := 0x00, payload := ⟨[0x41], by decide⟩ } ∧
      CommandPacket.Corruption [0x31, 0x00, 0x01, 0x41, 0x0B]
        [0x31, 0x00, 0x01, 0x4E, 0xFB] ∧
      CommandPacket.read [0x31, 0x00, 0x01, 0x4E, 0xFB] = .error .checksum ∧
      ∃ staged : StagingBuffer 8, staged.toList = [0x02] ∧
        (ofProtocol .v2_1).receive Port.silent Link.battered =
          .ok (.dropped .checksum) { Link.battered with staged } := by
  have accepted : CommandPacket.read [0x31, 0x00, 0x01, 0x41, 0x0B] =
      .ok { command := 0x31, subcommand := 0x00, payload := ⟨[0x41], by decide⟩ } := by
    rw [CommandPacket.read_eq_ok_iff]
    decide +kernel
  refine ⟨accepted, CommandPacket.burst_at_checksum, ?_⟩
  have sameLength : [0x31, 0x00, 0x01, 0x4E, 0xFB].length =
      [(0x31 : UInt8), 0x00, 0x01, 0x41, 0x0B].length := rfl
  rcases rejects_corrupted_packets accepted sameLength
    CommandPacket.burst_at_checksum with ⟨isRead, rejects⟩
  rcases rejects (ofProtocol .v2_1) Port.silent Link.battered [0x02] rfl
    Link.battered_holds with ⟨staged, left, received, _⟩
  exact ⟨isRead, staged, left, received⟩

end TriggerBench
