import Mathlib
import TriggerBench.Proofs.CheckBits
import TriggerBench.Session.Checking

/-! # Checksums as remainders

The bits of a message, in the order in which they are taken in, are the coefficients of a
polynomial over the field of two elements. Each bit that is taken in multiplies the
register by `X` and brings it back below the generator, so that the checksum is what
remains of the message after division by the generator.
-/

namespace TriggerBench

namespace Checksum

open Polynomial

def coefficient (bit : Bool) : ZMod 2 :=
  bif bit then 1 else 0

/-- The polynomial of some bits, the first of which is the coefficient of the highest
power. -/
noncomputable def bitPolynomial : List Bool → (ZMod 2)[X]
  | [] => 0
  | bit :: rest => C (coefficient bit) * X ^ rest.length + bitPolynomial rest

noncomputable def polynomial (bytes : List UInt8) : (ZMod 2)[X] :=
  bitPolynomial (bitsOf bytes)

noncomputable def generator : (ZMod 2)[X] :=
  X ^ 8 + X ^ 6 + X ^ 3 + X ^ 2 + 1

/-! ## Polynomials of bits -/

@[simp] private theorem coefficient_false : coefficient false = 0 :=
  rfl

@[simp] private theorem coefficient_true : coefficient true = 1 :=
  rfl

private theorem coefficient_xor (bit other : Bool) :
    coefficient (bit ^^ other) = coefficient bit + coefficient other := by
  cases bit <;> cases other <;> decide

private theorem bitPolynomial_concat (bits : List Bool) (bit : Bool) :
    bitPolynomial (bits ++ [bit]) = bitPolynomial bits * X + C (coefficient bit) := by
  induction bits with
  | nil => simp [bitPolynomial]
  | cons first rest induction =>
      rw [List.cons_append, bitPolynomial, induction, bitPolynomial, List.length_append,
        List.length_singleton]
      ring

private theorem bitPolynomial_xor {bits others : List Bool}
    (sameLength : bits.length = others.length) :
    bitPolynomial (List.zipWith xor bits others) =
      bitPolynomial bits + bitPolynomial others := by
  induction bits generalizing others with
  | nil =>
      rw [List.length_nil, eq_comm, List.length_eq_zero_iff] at sameLength
      rw [sameLength, List.zipWith_nil_left, bitPolynomial, add_zero]
  | cons bit bits induction =>
      cases others with
      | nil => cases sameLength
      | cons other others =>
          have sameRest : bits.length = others.length := Nat.succ.inj sameLength
          rw [List.zipWith_cons_cons, bitPolynomial, bitPolynomial, bitPolynomial,
            induction sameRest, List.length_zipWith, sameRest, Nat.min_self,
            coefficient_xor, C_add]
          ring

private theorem degree_bitPolynomial_lt (bits : List Bool) :
    (bitPolynomial bits).degree < bits.length := by
  induction bits with
  | nil => simp [bitPolynomial]
  | cons bit rest induction =>
      have shorter : (rest.length : WithBot Nat) < ((bit :: rest).length : WithBot Nat) :=
        Nat.cast_lt.mpr (Nat.lt_succ_self _)
      have first : (C (coefficient bit) * X ^ rest.length).degree <
          ((bit :: rest).length : WithBot Nat) :=
        (degree_C_mul_X_pow_le _ _).trans_lt shorter
      exact (degree_add_le _ _).trans_lt (max_lt first (induction.trans shorter))

/-! ## Registers below the generator -/

private theorem degree_generator : generator.degree = 8 := by
  unfold generator
  compute_degree!

private theorem generator_monic : generator.Monic := by
  unfold generator
  monicity!

private theorem polynomial_singleton (register : UInt8) :
    polynomial [register] = bitPolynomial (bitsOfByte register) := by
  rw [polynomial, bitsOf, List.flatMap_singleton]

private theorem degree_register_lt (register : UInt8) :
    (polynomial [register]).degree < generator.degree := by
  rw [polynomial_singleton, degree_generator]
  exact degree_bitPolynomial_lt (bitsOfByte register)

/-- The parameter is the generator without its highest power. -/
theorem generator_eq : generator = X ^ 8 + polynomial [packetCheck.polynomial] := by
  have bits : bitsOfByte packetCheck.polynomial =
      [false, true, false, false, true, true, false, true] := by
    decide +kernel
  rw [polynomial_singleton, bits, generator]
  simp only [bitPolynomial, List.length_cons, List.length_nil, coefficient_false,
    coefficient_true, C_0, C_1]
  ring

private theorem polynomial_xor (left right : UInt8) :
    polynomial [left ^^^ right] = polynomial [left] + polynomial [right] := by
  have bits : bitsOfByte (left ^^^ right) =
      List.zipWith xor (bitsOfByte left) (bitsOfByte right) := by
    simp only [bitsOfByte, UInt8.toNat_xor, List.map_cons, List.map_nil, Nat.testBit_xor,
      List.zipWith_cons_cons, List.zipWith_nil_left]
  have sameLength : (bitsOfByte left).length = (bitsOfByte right).length := rfl
  rw [polynomial_singleton, polynomial_singleton, polynomial_singleton, bits,
    bitPolynomial_xor sameLength]

private theorem polynomial_top (bit : Bool) :
    polynomial [bif bit then 0x80 else 0] = C (coefficient bit) * X ^ 7 := by
  have bits : bitsOfByte (bif bit then 0x80 else 0) = bit :: List.replicate 7 false := by
    cases bit <;> decide +kernel
  rw [polynomial_singleton, bits]
  simp [List.replicate, bitPolynomial]

private theorem polynomial_zero : polynomial [0] = 0 := by
  have clear := polynomial_top false
  rw [coefficient_false, C_0, zero_mul] at clear
  exact clear

private theorem polynomial_shiftLeft (register : UInt8) :
    polynomial [register <<< 1] =
      polynomial [register] * X +
        C (coefficient (register.toBitVec.getLsbD 7)) * X ^ 8 := by
  let lower := [6, 5, 4, 3, 2, 1, 0].map register.toNat.testBit
  have bits : bitsOfByte register = register.toBitVec.getLsbD 7 :: lower := rfl
  have shifted : bitsOfByte (register <<< 1) = lower ++ [false] := by
    have known : ∀ register : Fin 256, bitsOfByte (UInt8.ofFin register <<< 1) =
        [6, 5, 4, 3, 2, 1, 0].map (UInt8.ofFin register).toNat.testBit ++ [false] := by
      decide +kernel
    exact known register.toFin
  have sevenLower : lower.length = 7 := rfl
  -- The power that the shift drops and the one that is added for it are the same, and
  -- twice the same is nothing.
  have cancelled : C (coefficient (register.toBitVec.getLsbD 7)) * X ^ 8 +
      C (coefficient (register.toBitVec.getLsbD 7)) * X ^ 8 = 0 :=
    CharTwo.add_self_eq_zero _
  rw [polynomial_singleton, polynomial_singleton, bits, shifted, bitPolynomial_concat,
    bitPolynomial, sevenLower, coefficient_false, C_0]
  linear_combination -cancelled

/-- A shift multiplies by `X`, and takes the generator off where that exceeds it. -/
theorem polynomial_shift (register : UInt8) :
    polynomial [shift register] =
      polynomial [register] * X +
        C (coefficient (register.toBitVec.getLsbD 7)) * generator := by
  rw [shift_eq, polynomial_xor, polynomial_shiftLeft, generator_eq]
  cases register.toBitVec.getLsbD 7
  · rw [cond_false, polynomial_zero, coefficient_false, C_0]
    ring
  · rw [cond_true, coefficient_true, C_1]
    ring

private theorem polynomial_takeBit (register : UInt8) (bit : Bool) :
    ∃ excess, polynomial [takeBit register bit] =
      polynomial [register] * X + C (coefficient bit) * X ^ 8 + generator * excess := by
  let entered := register ^^^ bif bit then 0x80 else 0
  refine ⟨C (coefficient (entered.toBitVec.getLsbD 7)), ?_⟩
  rw [takeBit, polynomial_shift, polynomial_xor, polynomial_top]
  ring

/-! ## Remainders -/

private theorem polynomial_takeBits (register : UInt8) (bits : List Bool) :
    ∃ excess, polynomial [takeBits register bits] =
      polynomial [register] * X ^ bits.length + bitPolynomial bits * X ^ 8 +
        generator * excess := by
  induction bits generalizing register with
  | nil => exact ⟨0, by simp [takeBits, bitPolynomial]⟩
  | cons bit rest induction =>
      rcases polynomial_takeBit register bit with ⟨first, entered⟩
      rcases induction (takeBit register bit) with ⟨later, taken⟩
      refine ⟨first * X ^ rest.length + later, ?_⟩
      calc polynomial [takeBits register (bit :: rest)]
          = polynomial [takeBits (takeBit register bit) rest] := rfl
        _ = (polynomial [register] * X + C (coefficient bit) * X ^ 8 + generator *
          first) * X ^ rest.length +
              bitPolynomial rest * X ^ 8 + generator * later := by rw [taken, entered]
        _ = polynomial [register] * X ^ (bit :: rest).length +
          bitPolynomial (bit :: rest) * X ^ 8 +
              generator * (first * X ^ rest.length + later) := by
          rw [bitPolynomial, List.length_cons]
          ring

private theorem polynomial_ofBytes (message : List UInt8) :
    polynomial [ofBytes message] = polynomial message * X ^ 8 %ₘ generator := by
  rcases polynomial_takeBits 0 (bitsOf message) with ⟨excess, taken⟩
  rw [← ofBytes_eq_takeBits, polynomial_zero, zero_mul, zero_add] at taken
  have divided : polynomial [ofBytes message] + generator * -excess =
      polynomial message * X ^ 8 := by
    rw [taken, polynomial]
    ring
  exact (div_modByMonic_unique (-excess) _ generator_monic ⟨divided,
    degree_register_lt _⟩).2.symm

end Checksum

namespace Session.Checking

open Checksum Polynomial

def takenIn (taken : List UInt8) : Step → List UInt8
  | .update bytes => taken ++ bytes
  | .finish => []

def absorbed (steps : List Step) : List UInt8 :=
  steps.foldl takenIn []

private theorem take_started (step : Step) (taken : List UInt8) :
    (take step (({} : Checksum).update taken)).2 =
      ({} : Checksum).update (takenIn taken step) := by
  cases step with
  | update bytes => simp only [take, takenIn, Checksum.update, List.foldl_append]
  | finish => rfl

private theorem answers_finish (before after : List Step) (taken : List UInt8) :
    (answers take (before ++ .finish :: after)
      (({} : Checksum).update taken))[before.length]? =
      some (some (ofBytes (before.foldl takenIn taken))) := by
  induction before generalizing taken with
  | nil => rfl
  | cons step rest induction =>
      have stepped := take_started step taken
      rw [List.cons_append, List.length_cons, List.foldl_cons, ← induction, ← stepped]
      rfl

/-- Finishing gives the remainder of what was taken in since the last start, whatever went
before it. What follows its own checksum leaves no remainder. -/
theorem finishes_give_remainders :
    (∀ before after : List Step,
      (run (before ++ .finish :: after))[before.length]? =
        some (some (ofBytes (absorbed before)))) ∧
    ∀ message : List UInt8,
      polynomial [ofBytes message] = polynomial message * X ^ 8 %ₘ generator ∧
        ofBytes (message ++ [ofBytes message]) = 0 := by
  constructor
  · intro before after
    exact answers_finish before after []
  · intro message
    exact ⟨polynomial_ofBytes message, (ofBytes_concat_eq_zero_iff message _).mpr rfl⟩

example :
    run [.update ("123456789".toList.map Char.toUInt8), .finish, .finish] =
      [none, some 0xC3, some 0x00] := by
  decide +kernel

end Session.Checking

end TriggerBench
