import TriggerBench.Checksum

/-! # The checksum bit by bit

A checksum takes in a message bit by bit, the most significant bit of each byte first.
Both a shift of the register and the taking in of a bit are linear in exclusive or, so
that the checksum of a difference is the difference of checksums.
-/

namespace TriggerBench.Checksum

/-! ## Shifts -/

private theorem top_bit (register : UInt8) :
    register &&& 0x80 = 0 ↔ register.toBitVec.getLsbD 7 = false := by
  have known : ∀ register : Fin 256,
      UInt8.ofFin register &&& 0x80 = 0 ↔
        (UInt8.ofFin register).toBitVec.getLsbD 7 = false := by
    decide +kernel
  exact known register.toFin

theorem shift_eq (register : UInt8) :
    shift register = (register <<< 1) ^^^ bif register.toBitVec.getLsbD 7 then
      packetCheck.polynomial else 0 := by
  unfold shift
  cases top : register.toBitVec.getLsbD 7 with
  | false => simp [(top_bit register).mpr top]
  | true =>
      have notClear : register &&& 0x80 ≠ 0 := by
        intro clear
        rw [top_bit, top] at clear
        cases clear
      simp [notClear]

private theorem shift_xor (left right : UInt8) :
    shift (left ^^^ right) = shift left ^^^ shift right := by
  have shifted : (left ^^^ right) <<< 1 = (left <<< 1) ^^^ (right <<< 1) := by
    apply UInt8.toBitVec_inj.mp
    simp [BitVec.shiftLeft_xor_distrib]
  simp only [shift_eq, shifted, UInt8.toBitVec_xor, BitVec.getLsbD_xor]
  cases left.toBitVec.getLsbD 7 <;> cases right.toBitVec.getLsbD 7
  · simp
  · simp [UInt8.xor_assoc]
  · simp only [Bool.xor_false, cond_true, cond_false, UInt8.xor_zero]
    ac_rfl
  · simp only [Bool.xor_self, cond_true, cond_false, UInt8.xor_zero]
    have cancelled : packetCheck.polynomial ^^^ packetCheck.polynomial =
      0 := UInt8.xor_self
    calc (left <<< 1) ^^^ (right <<< 1)
        = (left <<< 1) ^^^ (right <<< 1) ^^^
          (packetCheck.polynomial ^^^ packetCheck.polynomial) := by
          rw [cancelled, UInt8.xor_zero]
      _ = (left <<< 1) ^^^ packetCheck.polynomial ^^^
        ((right <<< 1) ^^^ packetCheck.polynomial) := by ac_rfl

private theorem repeat_shift_xor (count : Nat) (left right : UInt8) :
    Nat.repeat shift count (left ^^^ right) = Nat.repeat shift count left ^^^
      Nat.repeat shift count right := by
  induction count with
  | zero => rfl
  | succ count induction => rw [Nat.repeat, induction, shift_xor, Nat.repeat, Nat.repeat]

theorem repeat_shift_shift (count : Nat) (register : UInt8) :
    Nat.repeat shift count (shift register) =
      shift (Nat.repeat shift count register) := by
  induction count with
  | zero => rfl
  | succ count induction => rw [Nat.repeat, induction, Nat.repeat]

/-- Nothing is lost in a shift, because the polynomial has a constant term. -/
theorem shift_eq_zero_iff (register : UInt8) : shift register = 0 ↔ register = 0 := by
  have known : ∀ register : Fin 256, shift (UInt8.ofFin register) = 0 ↔
      UInt8.ofFin register = 0 := by decide +kernel
  exact known register.toFin

theorem repeat_shift_eq_zero_iff (count : Nat) (register : UInt8) :
    Nat.repeat shift count register = 0 ↔ register = 0 := by
  induction count with
  | zero => rfl
  | succ count induction => rw [Nat.repeat, shift_eq_zero_iff, induction]

@[simp] theorem repeat_shift_zero (count : Nat) : Nat.repeat shift count 0 = 0 :=
  (repeat_shift_eq_zero_iff count 0).mpr rfl

/-! ## Bits -/

def bitsOfByte (byte : UInt8) : List Bool :=
  [7, 6, 5, 4, 3, 2, 1, 0].map byte.toNat.testBit

def bitsOf (bytes : List UInt8) : List Bool :=
  bytes.flatMap bitsOfByte

def takeBit (register : UInt8) (bit : Bool) : UInt8 :=
  shift (register ^^^ bif bit then 0x80 else 0)

def takeBits (register : UInt8) (bits : List Bool) : UInt8 :=
  bits.foldl takeBit register

theorem length_bitsOf (bytes : List UInt8) :
    (bitsOf bytes).length = 8 * bytes.length := by
  induction bytes with
  | nil => rfl
  | cons byte rest induction =>
      rw [bitsOf, List.flatMap_cons, List.length_append, ← bitsOf, induction,
        List.length_cons, Nat.mul_succ, Nat.add_comm]
      rfl

theorem takeBits_append (register : UInt8) (bits more : List Bool) :
    takeBits register (bits ++ more) = takeBits (takeBits register bits) more :=
  List.foldl_append

theorem takeBits_replicate_false (register : UInt8) (count : Nat) :
    takeBits register (List.replicate count false) = Nat.repeat shift count register := by
  induction count generalizing register with
  | zero => rfl
  | succ count induction =>
      have single : takeBit register false = shift register := by simp [takeBit]
      have rest : takeBits (takeBit register false) (List.replicate count false) =
          Nat.repeat shift count (takeBit register false) := induction _
      rw [List.replicate_succ, Nat.repeat, ← repeat_shift_shift, ← single]
      exact rest

private theorem takeBit_xor (left right : UInt8) (bit other : Bool) :
    takeBit (left ^^^ right) (bit ^^ other) =
      takeBit left bit ^^^ takeBit right other := by
  unfold takeBit
  rw [← shift_xor]
  congr 1
  cases bit <;> cases other
  · simp
  · simp [UInt8.xor_assoc]
  · simp only [Bool.xor_false, cond_true, cond_false, UInt8.xor_zero]
    ac_rfl
  · have cancelled : (0x80 : UInt8) ^^^ 0x80 = 0 := UInt8.xor_self
    calc left ^^^ right ^^^ 0 = left ^^^ right ^^^ (0x80 ^^^ 0x80) := by rw [cancelled]
      _ = left ^^^ 0x80 ^^^ (right ^^^ 0x80) := by ac_rfl

theorem takeBits_xor (left right : UInt8) {bits others : List Bool}
    (sameLength : bits.length = others.length) :
    takeBits (left ^^^ right) (List.zipWith xor bits others) =
      takeBits left bits ^^^ takeBits right others := by
  induction bits generalizing left right others with
  | nil =>
      rw [List.length_nil, eq_comm, List.length_eq_zero_iff] at sameLength
      rw [sameLength]
      rfl
  | cons bit bits induction =>
      cases others with
      | nil => cases sameLength
      | cons other others =>
          have taken :=
            induction (takeBit left bit) (takeBit right other) (Nat.succ.inj sameLength)
          rw [← takeBit_xor] at taken
          exact taken

/-- Taking bits in from a register is taking them in from nothing, next to the register
shifted as often. -/
theorem takeBits_eq (register : UInt8) (bits : List Bool) :
    takeBits register bits = Nat.repeat shift bits.length register ^^^
      takeBits 0 bits := by
  have sameLength : (List.replicate bits.length false).length = bits.length :=
    List.length_replicate
  have taken := takeBits_xor register 0 sameLength
  have unchanged : List.zipWith xor (List.replicate bits.length false) bits = bits := by
    apply List.ext_getElem
    · simp
    · intro position _ _
      simp
  rw [unchanged, UInt8.xor_zero, takeBits_replicate_false] at taken
  exact taken

private theorem takeBits_bitsOfByte (byte : UInt8) :
    takeBits 0 (bitsOfByte byte) = Nat.repeat shift 8 byte := by
  have known : ∀ byte : Fin 256,
      takeBits 0 (bitsOfByte (UInt8.ofFin byte)) =
        Nat.repeat shift 8 (UInt8.ofFin byte) := by
    decide +kernel
  exact known byte.toFin

private theorem absorb_eq_takeBits (register byte : UInt8) :
    absorb register byte = takeBits register (bitsOfByte byte) := by
  rw [takeBits_eq, takeBits_bitsOfByte]
  exact repeat_shift_xor 8 register byte

private theorem foldl_absorb (register : UInt8) (bytes : List UInt8) :
    bytes.foldl absorb register = takeBits register (bitsOf bytes) := by
  induction bytes generalizing register with
  | nil => rfl
  | cons byte rest induction =>
      rw [List.foldl_cons, induction, absorb_eq_takeBits, ← takeBits_append]
      rfl

theorem ofBytes_eq_takeBits (bytes : List UInt8) :
    ofBytes bytes = takeBits 0 (bitsOf bytes) := by
  rw [← foldl_absorb]
  exact UInt8.xor_zero

/-- A message that ends in its checksum leaves nothing in the register, and no other
message does. -/
theorem ofBytes_concat_eq_zero_iff (body : List UInt8) (check : UInt8) :
    ofBytes (body ++ [check]) = 0 ↔ ofBytes body = check := by
  have whole : ofBytes (body ++ [check]) = absorb (ofBytes body) check := by
    rw [ofBytes_eq_takeBits, ofBytes_eq_takeBits, ← foldl_absorb, ← foldl_absorb,
      List.foldl_append]
    rfl
  rw [whole]
  constructor
  · intro nothing
    exact UInt8.xor_eq_zero_iff.mp ((repeat_shift_eq_zero_iff _ _).mp nothing)
  · rintro rfl
    exact (repeat_shift_eq_zero_iff _ _).mpr UInt8.xor_self

end TriggerBench.Checksum
