import TriggerBench.Hex

/-! # Hexadecimal spelling

Two digits are read as a byte exactly if they are the digits that the byte is written
with, up to the case of letters.
-/

namespace TriggerBench.Hex

def capital (byte : UInt8) : UInt8 :=
  if 'a'.toUInt8 ≤ byte ∧ byte ≤ 'f'.toUInt8 then byte - 0x20 else byte

def IsDigit (byte : UInt8) : Prop :=
  ('0'.toUInt8 ≤ byte ∧ byte ≤ '9'.toUInt8) ∨ ('A'.toUInt8 ≤ byte ∧ byte ≤ 'F'.toUInt8) ∨
    ('a'.toUInt8 ≤ byte ∧ byte ≤ 'f'.toUInt8)

instance (byte : UInt8) : Decidable (IsDigit byte) :=
  inferInstanceAs (Decidable ((_ ∧ _) ∨ (_ ∧ _) ∨ (_ ∧ _)))

def spell (bytes : List UInt8) : List UInt8 :=
  bytes.flatMap encode

@[simp] theorem spell_nil : spell [] = [] :=
  rfl

theorem spell_cons (byte : UInt8) (bytes : List UInt8) :
    spell (byte :: bytes) = encode byte ++ spell bytes :=
  rfl

theorem spell_append (left right : List UInt8) :
    spell (left ++ right) = spell left ++ spell right :=
  List.flatMap_append

@[simp] theorem length_spell (bytes : List UInt8) :
    (spell bytes).length = 2 * bytes.length := by
  induction bytes with
  | nil => rfl
  | cons byte bytes induction =>
      rw [spell_cons, List.length_append, induction, List.length_cons]
      simp only [encode, List.length_cons, List.length_nil]
      omega

/-! ## One digit -/

private theorem value?_isSome_iff (byte : UInt8) :
    (value? byte).isSome = true ↔ IsDigit byte := by
  unfold value? IsDigit
  split
  case isTrue decimal => simp [decimal]
  case isFalse notDecimal =>
      split
      case isTrue large => simp [large]
      case isFalse notLarge =>
          split
          case isTrue small => simp [small]
          case isFalse notSmall => simp [notDecimal, notLarge, notSmall]

private theorem value?_eq_some_iff (byte value : UInt8) :
    value? byte = some value ↔ value < 16 ∧ capital byte = digit value := by
  constructor
  · have known : ∀ byte : Fin 256, ∀ found ∈ value? (.ofFin byte),
        found < 16 ∧ capital (.ofFin byte) = digit found := by
      decide +kernel
    exact known byte.toFin value
  · rintro ⟨small, isDigit⟩
    have known : ∀ value : Fin 16, ∀ byte : Fin 256,
        capital (.ofFin byte) = digit (.ofNat value) →
        value? (.ofFin byte) = some (.ofNat value) := by
      decide +kernel
    have smallNat : value.toNat < 16 := small
    simpa using known ⟨value.toNat, smallNat⟩ byte.toFin (by simpa using isDigit)

/-! ## Two digits -/

private theorem halves_of_join {high low : UInt8} (highSmall : high < 16)
    (lowSmall : low < 16) :
    ((high <<< 4) ||| low) >>> 4 = high ∧ ((high <<< 4) ||| low) &&& 0x0F = low := by
  have known : ∀ high low : Fin 16,
      ((UInt8.ofNat high <<< 4) ||| .ofNat low) >>> 4 = .ofNat high ∧
      ((UInt8.ofNat high <<< 4) ||| .ofNat low) &&& 0x0F = .ofNat low := by
    decide +kernel
  simpa using known ⟨high.toNat, highSmall⟩ ⟨low.toNat, lowSmall⟩

private theorem join_halves (byte : UInt8) :
    ((byte >>> 4) <<< 4) ||| (byte &&& 0x0F) = byte := by
  have known : ∀ byte : Fin 256,
      ((UInt8.ofFin byte >>> 4) <<< 4) ||| (.ofFin byte &&& 0x0F) = .ofFin byte := by
    decide +kernel
  exact known byte.toFin

theorem halves_lt (byte : UInt8) : byte >>> 4 < 16 ∧ byte &&& 0x0F < 16 := by
  have known : ∀ byte : Fin 256, UInt8.ofFin byte >>> 4 < 16 ∧
      .ofFin byte &&& 0x0F < (16 : UInt8) := by
    decide +kernel
  exact known byte.toFin

theorem decode?_eq_some_iff (high low byte : UInt8) :
    decode? high low = some byte ↔ [capital high, capital low] = encode byte := by
  have halves := halves_lt byte
  simp only [encode, List.cons.injEq, and_true]
  constructor
  · intro decoded
    simp only [decode?] at decoded
    split at decoded
    case h_2 => cases decoded
    case h_1 highValue lowValue isHigh isLow =>
        cases decoded
        rcases (value?_eq_some_iff _ _).mp isHigh with ⟨highSmall, highDigit⟩
        rcases (value?_eq_some_iff _ _).mp isLow with ⟨lowSmall, lowDigit⟩
        rw [(halves_of_join highSmall lowSmall).1, (halves_of_join highSmall lowSmall).2]
        exact ⟨highDigit, lowDigit⟩
  · rintro ⟨highDigit, lowDigit⟩
    have isHigh := (value?_eq_some_iff _ _).mpr ⟨halves.1, highDigit⟩
    have isLow := (value?_eq_some_iff _ _).mpr ⟨halves.2, lowDigit⟩
    simp [decode?, isHigh, isLow, join_halves]

theorem decode?_eq_none_iff (high low : UInt8) :
    decode? high low = none ↔ ¬(IsDigit high ∧ IsDigit low) := by
  rw [← value?_isSome_iff, ← value?_isSome_iff]
  cases isHigh : value? high <;> cases isLow : value? low <;>
    simp [decode?, isHigh, isLow]

/-- A byte is written with capital letters. -/
theorem map_capital_encode (byte : UInt8) : (encode byte).map capital = encode byte := by
  have known : ∀ byte : Fin 256,
      (encode (.ofFin byte)).map capital = encode (.ofFin byte) := by
    decide +kernel
  exact known byte.toFin

theorem map_capital_spell (bytes : List UInt8) :
    (spell bytes).map capital = spell bytes := by
  induction bytes with
  | nil => rfl
  | cons byte rest induction =>
      rw [spell_cons, List.map_append, map_capital_encode, induction]

private theorem encode_injective {left right : UInt8}
    (equal : encode left = encode right) : left = right := by
  have read : ∀ byte : UInt8, decode? (digit (byte >>> 4)) (digit (byte &&& 0x0F)) =
      some byte := fun byte =>
    (decode?_eq_some_iff _ _ byte).mpr (map_capital_encode byte)
  have leftRead := read left
  simp only [encode, List.cons.injEq, and_true] at equal
  rw [equal.1, equal.2, read right, Option.some.injEq] at leftRead
  exact leftRead.symm

theorem spell_injective {left right : List UInt8} (equal : spell left = spell right) :
    left = right := by
  induction left generalizing right with
  | nil =>
      cases right with
      | nil => rfl
      | cons byte rest => simp [spell_cons, encode] at equal
  | cons byte rest induction =>
      cases right with
      | nil => simp [spell_cons, encode] at equal
      | cons other otherRest =>
          rw [spell_cons, spell_cons] at equal
          rcases List.append_inj equal rfl with ⟨sameByte, sameRest⟩
          rw [encode_injective sameByte, induction sameRest]

private theorem mem_spell {byte : UInt8} {bytes : List UInt8}
    (member : byte ∈ spell bytes) :
    ∃ value, value < 16 ∧ byte = digit value := by
  rcases List.mem_flatMap.mp member with ⟨spelled, _, isDigit⟩
  have halves := halves_lt spelled
  simp only [encode, List.mem_cons, List.not_mem_nil, or_false] at isDigit
  rcases isDigit with rfl | rfl
  · exact ⟨_, halves.1, rfl⟩
  · exact ⟨_, halves.2, rfl⟩

theorem isDigit_of_spell {digits bytes : List UInt8}
    (spelling : digits.map capital = spell bytes) :
    ∀ byte ∈ digits, IsDigit byte := by
  intro byte member
  have spelled : capital byte ∈ spell bytes := spelling ▸ List.mem_map_of_mem member
  rcases mem_spell spelled with ⟨value, small, isDigit⟩
  apply (value?_isSome_iff byte).mp
  rw [(value?_eq_some_iff byte value).mpr ⟨small, isDigit⟩]
  rfl

end TriggerBench.Hex
