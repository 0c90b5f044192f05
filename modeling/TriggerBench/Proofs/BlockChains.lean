import TriggerBench.Stuffing

/-! # Chains of blocks

Unstuffing takes back what stuffing did to any message. A short zero-free chain that
unstuffs at all is the stuffed form of the message that it stands for, so that such a
message has one stuffed form only. A chain does not unstuff exactly if following its code
bytes leads to one that counts past its end.
-/

namespace TriggerBench.Stuffing

def separator (zeroFollows : Bool) : List UInt8 :=
  if zeroFollows then [0] else []

/-! ## Literals -/

private theorem decodeFrom?_literals (literals : List UInt8) (zeroFollows : Bool)
    (rest : List UInt8) :
    decodeFrom? literals.length zeroFollows (literals ++ rest) =
      (decodeFrom? 0 zeroFollows rest).map (literals ++ ·) := by
  induction literals with
  | nil => simp
  | cons byte literals induction =>
      simp [decodeFrom?, induction, Function.comp_def]

private theorem decodeFrom?_short {due : Nat} {bytes : List UInt8}
    (short : bytes.length < due) (zeroFollows : Bool) :
    decodeFrom? due zeroFollows bytes = none := by
  induction bytes generalizing due with
  | nil => simp [decodeFrom?, show due ≠ 0 by exact Nat.ne_of_gt short]
  | cons byte rest induction =>
      cases due with
      | zero => simp at short
      | succ due => simp [decodeFrom?, induction (Nat.lt_of_succ_lt_succ short)]

/-- A block contributes what stands in front of it, its literals, and the rest of its
chain. -/
theorem decodeFrom?_closeBlock {literals : List UInt8}
    (fits : literals.length ≤ longestBlock) (zeroFollows : Bool) (rest : List UInt8) :
    decodeFrom? 0 zeroFollows (closeBlock literals ++ rest) =
      (decodeFrom? 0 (literals.length != longestBlock) rest).map fun message =>
        separator zeroFollows ++ (literals ++ message) := by
  have codeValue : (UInt8.ofNat (literals.length + 1)).toNat = literals.length + 1 := by
    apply UInt8.toNat_ofNat_of_lt'
    change literals.length + 1 < 256
    simp only [longestBlock] at fits
    omega
  have isLongest : (UInt8.ofNat (literals.length + 1) != 0xFF) =
      (literals.length != longestBlock) := by
    have longestCode : (0xFF : UInt8).toNat = longestBlock + 1 := rfl
    rw [Bool.eq_iff_iff, bne_iff_ne, bne_iff_ne, ne_eq, ne_eq, ← UInt8.toNat_inj,
      codeValue, longestCode, Nat.add_right_cancel_iff]
  simp only [closeBlock, List.cons_append, decodeFrom?, codeValue, Nat.add_sub_cancel,
    isLongest, decodeFrom?_literals]
  cases zeroFollows <;> simp [separator, Function.comp_def]

/-! ## Unstuffing what was stuffed -/

private theorem decodeFrom?_encodeFrom {literals : List UInt8}
    (fits : literals.length < longestBlock) (message : List UInt8) (zeroFollows : Bool) :
    decodeFrom? 0 zeroFollows (encodeFrom literals message) =
      some (separator zeroFollows ++ (literals ++ message)) := by
  induction message generalizing literals zeroFollows with
  | nil =>
      have closed := decodeFrom?_closeBlock (Nat.le_of_lt fits) zeroFollows []
      simpa [encodeFrom, decodeFrom?] using closed
  | cons byte rest induction =>
      simp only [encodeFrom]
      split
      case isTrue zero =>
          have short : (literals.length != longestBlock) = true :=
            bne_iff_ne.mpr (Nat.ne_of_lt fits)
          rw [decodeFrom?_closeBlock (Nat.le_of_lt fits), short, induction (by decide)]
          simp [separator, zero]
      case isFalse nonzero =>
          split
          case isTrue full =>
              have length : (literals ++ [byte]).length = longestBlock := by
                simpa using full
              rw [decodeFrom?_closeBlock (Nat.le_of_eq length), length, bne_self_eq_false,
                induction (by decide)]
              simp [separator]
          case isFalse notFull =>
              have room : (literals ++ [byte]).length < longestBlock := by
                simp only [List.length_append, List.length_singleton]
                omega
              rw [induction room]
              simp

theorem decode?_encode (message : List UInt8) :
    decode? (encode message) = some message := by
  have decoded :=
    decodeFrom?_encodeFrom
      (show ([] : List UInt8).length < longestBlock by decide) message false
  simpa [decode?, encode, separator] using decoded

/-! ## The shape of a stuffed form -/

private theorem encodeFrom_ne_nil (literals message : List UInt8) :
    encodeFrom literals message ≠ [] := by
  induction message generalizing literals with
  | nil => simp [encodeFrom, closeBlock]
  | cons byte rest induction =>
      simp only [encodeFrom]
      split
      · simp [closeBlock]
      · split
        · simp [closeBlock]
        · exact induction _

private theorem zero_free_closeBlock {literals : List UInt8}
    (fits : literals.length ≤ longestBlock) (zeroFree : ∀ byte ∈ literals, byte ≠ 0) :
    ∀ byte ∈ closeBlock literals, byte ≠ 0 := by
  have codeNonzero : UInt8.ofNat (literals.length + 1) ≠ 0 := by
    intro zero
    have value := congrArg UInt8.toNat zero
    rw [UInt8.toNat_ofNat'] at value
    simp only [longestBlock] at fits
    simp only [UInt8.toNat_zero] at value
    omega
  intro byte member
  rcases List.mem_cons.mp member with rfl | inLiterals
  · exact codeNonzero
  · exact zeroFree byte inLiterals

private theorem zero_free_encodeFrom {literals : List UInt8}
    (fits : literals.length < longestBlock) (zeroFree : ∀ byte ∈ literals, byte ≠ 0)
    (message : List UInt8) :
    ∀ byte ∈ encodeFrom literals message, byte ≠ 0 := by
  induction message generalizing literals with
  | nil => exact zero_free_closeBlock (Nat.le_of_lt fits) zeroFree
  | cons byte rest induction =>
      simp only [encodeFrom]
      split
      case isTrue =>
          intro member inForm
          rcases List.mem_append.mp inForm with inBlock | inRest
          · exact zero_free_closeBlock (Nat.le_of_lt fits) zeroFree member inBlock
          · exact induction (by decide) (by simp) member inRest
      case isFalse nonzero =>
          have stillFree : ∀ member ∈ literals ++ [byte], member ≠ 0 := by
            intro member inside
            rcases List.mem_append.mp inside with inLiterals | isByte
            · exact zeroFree member inLiterals
            · exact List.mem_singleton.mp isByte ▸ nonzero
          split
          case isTrue full =>
              have length : (literals ++ [byte]).length ≤ longestBlock := by
                simp [full]
              intro member inForm
              rcases List.mem_append.mp inForm with inBlock | inRest
              · exact zero_free_closeBlock length stillFree member inBlock
              · exact induction (by decide) (by simp) member inRest
          case isFalse notFull =>
              have room : (literals ++ [byte]).length < longestBlock := by
                simp only [List.length_append, List.length_singleton]
                omega
              exact induction room stillFree

theorem zero_free_encode (message : List UInt8) : ∀ byte ∈ encode message, byte ≠ 0 :=
  zero_free_encodeFrom (by decide) (by simp) message

theorem encode_ne_nil (message : List UInt8) : encode message ≠ [] :=
  encodeFrom_ne_nil [] message

private theorem length_encodeFrom {literals message : List UInt8}
    (short : literals.length + message.length < longestBlock) :
    (encodeFrom literals message).length = literals.length + message.length + 1 := by
  induction message generalizing literals with
  | nil => simp [encodeFrom, closeBlock]
  | cons byte rest induction =>
      simp only [List.length_cons] at short
      simp only [encodeFrom]
      split
      · rw [List.length_append, induction (by simp only [List.length_nil]; omega)]
        simp only [closeBlock, List.length_cons, List.length_nil]
        omega
      · rw [if_neg (by omega),
          induction (by simp only [List.length_append, List.length_singleton]; omega)]
        simp only [List.length_append, List.length_cons, List.length_nil]
        omega

theorem length_encode {message : List UInt8} (short : message.length < longestBlock) :
    (encode message).length = message.length + 1 := by
  rw [encode, length_encodeFrom (by simpa using short)]
  simp

/-! ## One stuffed form only -/

private theorem encodeFrom_literals {literals more : List UInt8}
    (zeroFree : ∀ byte ∈ more, byte ≠ 0)
    (fits : literals.length + more.length < longestBlock) (message : List UInt8) :
    encodeFrom literals (more ++ message) = encodeFrom (literals ++ more) message := by
  induction more generalizing literals with
  | nil => simp
  | cons byte more induction =>
      simp only [List.length_cons] at fits
      have nonzero : byte ≠ 0 := zeroFree byte (by simp)
      have notFull : literals.length + 1 ≠ longestBlock := by omega
      have room : (literals ++ [byte]).length + more.length < longestBlock := by
        simp only [List.length_append, List.length_singleton]
        omega
      rw [List.cons_append, encodeFrom, if_neg nonzero, if_neg notFull,
        induction (fun other member =>
          zeroFree other (List.mem_cons_of_mem byte member)) room]
      simp

private theorem exists_block {code : UInt8} {body : List UInt8} (nonzero : code ≠ 0)
    {zeroFollows : Bool} {message : List UInt8}
    (decoded : decodeFrom? 0 zeroFollows (code :: body) = some message) :
    ∃ literals rest, body = literals ++ rest ∧
      code :: literals = closeBlock literals := by
  have positive : 0 < code.toNat := by
    rw [Nat.pos_iff_ne_zero]
    exact fun zero => nonzero (UInt8.toNat_inj.mp zero)
  have enough : code.toNat - 1 ≤ body.length := by
    rcases Nat.lt_or_ge body.length (code.toNat - 1) with short | enough
    · have nothing := decodeFrom?_short short (code != 0xFF)
      cases zeroFollows <;> simp [decodeFrom?, nothing] at decoded
    · exact enough
  have literalsLength : (body.take (code.toNat - 1)).length = code.toNat - 1 := by
    rw [List.length_take, Nat.min_eq_left enough]
  refine ⟨body.take (code.toNat - 1), body.drop (code.toNat - 1),
    (List.take_append_drop _ _).symm, ?_⟩
  rw [closeBlock, literalsLength, Nat.sub_add_cancel positive, UInt8.ofNat_toNat]

private theorem encode_literals_zero {literals : List UInt8}
    (zeroFree : ∀ byte ∈ literals, byte ≠ 0) (fits : literals.length < longestBlock)
    (message : List UInt8) :
    encode (literals ++ 0 :: message) = closeBlock literals ++ encode message := by
  rw [encode, encodeFrom_literals zeroFree (by simpa using fits)]
  simp [encodeFrom, encode]

private theorem encode_literals {literals : List UInt8}
    (zeroFree : ∀ byte ∈ literals, byte ≠ 0) (fits : literals.length < longestBlock) :
    encode literals = closeBlock literals := by
  have fitsNext : ([] : List UInt8).length + literals.length < longestBlock := by
    simpa using fits
  simpa [encode, encodeFrom] using encodeFrom_literals zeroFree fitsNext []

private theorem eq_encode_of_decodeFrom? {stuffed : List UInt8} (nonempty : stuffed ≠ [])
    (zeroFree : ∀ byte ∈ stuffed, byte ≠ 0) (short : stuffed.length ≤ longestBlock)
    {zeroFollows : Bool} {message : List UInt8}
    (decoded : decodeFrom? 0 zeroFollows stuffed = some message) :
    ∃ rest, message = separator zeroFollows ++ rest ∧ stuffed = encode rest := by
  -- The induction is on the length of the chain: what follows the first block is a
  -- shorter chain.
  induction bound : stuffed.length using Nat.strongRecOn
    generalizing stuffed zeroFollows message with
  | ind length induction =>
      cases stuffed with
      | nil => exact absurd rfl nonempty
      | cons code body =>
          rcases exists_block (zeroFree code (by simp)) decoded with
            ⟨literals, rest, rfl, block⟩
          simp only [List.length_cons, List.length_append] at short bound
          have literalsZeroFree : ∀ byte ∈ literals, byte ≠ 0 := fun byte member =>
            zeroFree byte (by simp [member])
          have restZeroFree : ∀ byte ∈ rest, byte ≠ 0 := fun byte member =>
            zeroFree byte (by simp [member])
          have literalsShort : literals.length < longestBlock := by omega
          have notLongest : (literals.length != longestBlock) = true :=
            bne_iff_ne.mpr (Nat.ne_of_lt literalsShort)
          rw [← List.cons_append, block] at decoded ⊢
          rw [decodeFrom?_closeBlock (Nat.le_of_lt literalsShort), notLongest] at decoded
          rcases Option.map_eq_some_iff.mp decoded with ⟨inner, innerDecoded, rfl⟩
          cases rest with
          | nil =>
              rw [decodeFrom?, if_pos rfl, Option.some.injEq] at innerDecoded
              refine ⟨literals, by simp [← innerDecoded], ?_⟩
              rw [List.append_nil, encode_literals literalsZeroFree literalsShort]
          | cons next later =>
              rcases induction _ (by omega) (List.cons_ne_nil next later) restZeroFree
                (by omega) innerDecoded rfl with ⟨tail, rfl, restIs⟩
              refine ⟨literals ++ 0 :: tail, by simp [separator], ?_⟩
              rw [encode_literals_zero literalsZeroFree literalsShort, restIs]

/-- A short zero-free chain unstuffs to a message exactly if it is the message's stuffed
form. -/
theorem decode?_eq_some_iff {stuffed : List UInt8} (nonempty : stuffed ≠ [])
    (zeroFree : ∀ byte ∈ stuffed, byte ≠ 0) (short : stuffed.length ≤ longestBlock)
    (message : List UInt8) :
    decode? stuffed = some message ↔ stuffed = encode message := by
  constructor
  · intro decoded
    rcases eq_encode_of_decodeFrom? nonempty zeroFree short decoded with
      ⟨rest, equal, form⟩
    simpa [equal, separator] using form
  · rintro rfl
    exact decode?_encode message

/-! ## Chains that reach past the end -/

/-- The offsets at which a code byte stands when a chain is followed from its start. -/
inductive CodeAt (stuffed : List UInt8) : Nat → Prop
  | first (nonempty : 0 < stuffed.length) : CodeAt stuffed 0
  | next {offset : Nat} {code : UInt8} (reached : CodeAt stuffed offset)
      (isCode : stuffed[offset]? = some code)
      (inside : offset + code.toNat < stuffed.length) :
      CodeAt stuffed (offset + code.toNat)

/-- A chain in which some block has fewer literals than its code byte says. -/
def Overruns (stuffed : List UInt8) : Prop :=
  ∃ offset code, CodeAt stuffed offset ∧ stuffed[offset]? = some code ∧
    stuffed.length < offset + code.toNat

theorem not_overruns_nil : ¬Overruns [] := by
  rintro ⟨offset, code, _, isCode, _⟩
  simp at isCode

variable {code : UInt8} {literals rest : List UInt8}

private theorem length_block (whole : literals.length + 1 = code.toNat) :
    (code :: (literals ++ rest)).length = code.toNat + rest.length := by
  rw [List.length_cons, List.length_append]
  omega

private theorem getElem?_block (whole : literals.length + 1 = code.toNat) (inner : Nat) :
    (code :: (literals ++ rest))[code.toNat + inner]? = rest[inner]? := by
  rw [← whole, Nat.add_right_comm, List.getElem?_cons_succ,
    List.getElem?_append_right (Nat.le_add_right _ _), Nat.add_sub_cancel_left]

/-- Behind a whole first block, the code bytes of a chain are those of what follows the
block. -/
theorem codeAt_block_iff (whole : literals.length + 1 = code.toNat) (offset : Nat) :
    CodeAt (code :: (literals ++ rest)) offset ↔
      offset = 0 ∨ ∃ inner, CodeAt rest inner ∧ offset = code.toNat + inner := by
  constructor
  · intro reached
    induction reached with
    | first => exact .inl rfl
    | @next offset found reached isCode inside induction =>
        rw [length_block whole] at inside
        rcases induction with rfl | ⟨inner, innerReached, rfl⟩
        · rw [List.getElem?_cons_zero, Option.some.injEq] at isCode
          subst isCode
          exact .inr ⟨0, .first (by omega), by omega⟩
        · rw [getElem?_block whole] at isCode
          exact .inr ⟨inner + found.toNat, .next innerReached isCode (by omega), by omega⟩
  · rintro (rfl | ⟨inner, innerReached, rfl⟩)
    · exact .first (Nat.succ_pos _)
    · induction innerReached with
      | first nonempty =>
          have reached : CodeAt (code :: (literals ++ rest)) (0 + code.toNat) :=
            .next (.first (Nat.succ_pos _)) rfl (by rw [length_block whole]; omega)
          rwa [Nat.zero_add] at reached
      | @next inner found _ isCode inside induction =>
          rw [← Nat.add_assoc]
          exact .next induction ((getElem?_block whole inner).trans isCode)
            (by rw [length_block whole]; omega)

private theorem overruns_block_iff (whole : literals.length + 1 = code.toNat) :
    Overruns (code :: (literals ++ rest)) ↔ Overruns rest := by
  have length : (code :: (literals ++ rest)).length = code.toNat + rest.length :=
    length_block whole
  constructor
  · rintro ⟨offset, found, reached, isCode, beyond⟩
    rcases (codeAt_block_iff whole offset).mp reached with
      rfl | ⟨inner, innerReached, rfl⟩
    · rw [List.getElem?_cons_zero, Option.some.injEq] at isCode
      subst isCode
      omega
    · rw [getElem?_block whole] at isCode
      exact ⟨inner, found, innerReached, isCode, by omega⟩
  · rintro ⟨inner, found, innerReached, isCode, beyond⟩
    exact ⟨code.toNat + inner, found,
      (codeAt_block_iff whole _).mpr (.inr ⟨inner, innerReached, rfl⟩),
      (getElem?_block whole inner).trans isCode, by omega⟩

private theorem decodeFrom?_eq_none_iff {stuffed : List UInt8}
    (zeroFree : ∀ byte ∈ stuffed, byte ≠ 0) (zeroFollows : Bool) :
    decodeFrom? 0 zeroFollows stuffed = none ↔ Overruns stuffed := by
  -- The induction is on the length of the chain: what follows a whole first block is a
  -- shorter chain.
  induction bound : stuffed.length using Nat.strongRecOn
    generalizing stuffed zeroFollows with
  | ind length induction =>
      cases stuffed with
      | nil => simp [decodeFrom?, not_overruns_nil]
      | cons code body =>
          have positive : 0 < code.toNat := by
            rw [Nat.pos_iff_ne_zero]
            exact fun zero => zeroFree code List.mem_cons_self (UInt8.toNat_inj.mp zero)
          rcases Nat.lt_or_ge body.length (code.toNat - 1) with short | enough
          · have nothing := decodeFrom?_short short (code != 0xFF)
            have isNone : decodeFrom? 0 zeroFollows (code :: body) = none := by
              cases zeroFollows <;> simp [decodeFrom?, nothing]
            have overruns : Overruns (code :: body) :=
              ⟨0, code, .first (Nat.succ_pos _),
                rfl, by simp only [List.length_cons]; omega⟩
            exact iff_of_true isNone overruns
          · obtain ⟨literals, rest, rfl, whole⟩ :
                ∃ literals rest, body = literals ++ rest ∧
                literals.length + 1 = code.toNat :=
              ⟨body.take (code.toNat - 1), body.drop (code.toNat - 1),
                (List.take_append_drop _ _).symm, by
                rw [List.length_take]
                omega⟩
            have fits : literals.length ≤ longestBlock := by
              have codeLt := code.toNat_lt
              simp only [longestBlock]
              omega
            have isBlock : code :: literals = closeBlock literals := by
              rw [closeBlock, whole, UInt8.ofNat_toNat]
            have restZeroFree : ∀ byte ∈ rest, byte ≠ 0 := fun byte member =>
              zeroFree byte (by simp [member])
            have shorter : rest.length < length := by
              rw [← bound, List.length_cons, List.length_append]
              omega
            rw [overruns_block_iff whole, ← List.cons_append, isBlock,
              decodeFrom?_closeBlock fits, Option.map_eq_none_iff]
            exact induction _ shorter restZeroFree _ rfl

/-- A zero-free chain stands for a message unless one of its blocks reaches past the
end. -/
theorem decode?_eq_none_iff {stuffed : List UInt8}
    (zeroFree : ∀ byte ∈ stuffed, byte ≠ 0) :
    decode? stuffed = none ↔ Overruns stuffed :=
  decodeFrom?_eq_none_iff zeroFree false

end TriggerBench.Stuffing
