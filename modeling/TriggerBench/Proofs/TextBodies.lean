import TriggerBench.Frame.Text
import TriggerBench.Proofs.HexSpelling

/-! # Bodies of text frames

A body is walked over two digits at a time. Where that ends depends on the terminators
alone, and only what a complete body comes to depends on the digits.
-/

namespace TriggerBench.TextFrame

/-! ## Where the walk ends -/

def Unterminated (bytes : List UInt8) : Prop :=
  ∀ byte ∈ bytes, isTerminator byte = false

private theorem unterminated_cons {byte : UInt8} {bytes : List UInt8} :
    Unterminated (byte :: bytes) ↔ isTerminator byte = false ∧ Unterminated bytes := by
  simp [Unterminated]

theorem unterminated_cases (count : Nat) (bytes : List UInt8) :
    (∃ before terminator rest, bytes = before ++ terminator :: rest ∧
      Unterminated before ∧
      isTerminator terminator = true ∧ before.length < count) ∨
    (∃ before last rest, bytes = before ++ last :: rest ∧ Unterminated before ∧
      before.length = count) ∨
    (Unterminated bytes ∧ bytes.length ≤ count) := by
  induction bytes generalizing count with
  | nil => exact .inr (.inr ⟨by simp [Unterminated], Nat.zero_le _⟩)
  | cons byte bytes induction =>
      cases count with
      | zero => exact .inr (.inl ⟨[], byte, bytes, rfl, by simp [Unterminated], rfl⟩)
      | succ count =>
          cases ends : isTerminator byte with
          | true =>
              exact .inl ⟨[], byte, bytes, rfl, by simp [Unterminated],
                ends, Nat.succ_pos _⟩
          | false =>
              rcases induction count with
                ⟨before, terminator, rest, rfl, free, isEnd, inside⟩ | ⟨before, last,
                  rest, rfl, free, exact⟩ | ⟨free, short⟩
              · exact .inl ⟨byte :: before, terminator, rest, rfl,
                  unterminated_cons.mpr ⟨ends, free⟩, isEnd, Nat.succ_lt_succ inside⟩
              · exact .inr (.inl ⟨byte :: before, last, rest, rfl,
                  unterminated_cons.mpr ⟨ends, free⟩, congrArg Nat.succ exact⟩)
              · exact .inr (.inr ⟨unterminated_cons.mpr ⟨ends, free⟩,
                  Nat.succ_le_succ short⟩)

theorem readBody?_early {body : Body} {due : Nat} {before rest : List UInt8}
    {terminator : UInt8} (free : Unterminated before)
    (ends : isTerminator terminator = true) (inside : before.length < 2 * due) :
    readBody? body due (before ++ terminator :: rest) =
      some (.error .earlyTerminator, before.length + 1) := by
  induction due generalizing body before with
  | zero => omega
  | succ due induction =>
      match before with
      | [] => simp [readBody?, ends]
      | [high] =>
          have continues := (unterminated_cons.mp free).1
          simp [readBody?, continues, ends]
      | high :: low :: before =>
          rcases unterminated_cons.mp free with ⟨highContinues, rest⟩
          rcases unterminated_cons.mp rest with ⟨lowContinues, free⟩
          have insideRest : before.length < 2 * due := by
            simp only [List.length_cons] at inside
            omega
          simp [readBody?, highContinues, lowContinues, induction free insideRest]

/-- The walk goes on while neither all digits and a byte behind them nor a terminator are
there. -/
theorem readBody?_short {body : Body} {due : Nat} {bytes : List UInt8}
    (free : Unterminated bytes) (short : bytes.length ≤ 2 * due) :
    readBody? body due bytes = none := by
  induction due generalizing body bytes with
  | zero =>
      have nothing : bytes = [] := List.length_eq_zero_iff.mp (by omega)
      simp [nothing, readBody?]
  | succ due induction =>
      match bytes with
      | [] => simp [readBody?]
      | [high] =>
          have continues := (unterminated_cons.mp free).1
          simp [readBody?, continues]
      | high :: low :: bytes =>
          rcases unterminated_cons.mp free with ⟨highContinues, rest⟩
          rcases unterminated_cons.mp rest with ⟨lowContinues, free⟩
          have shortRest : bytes.length ≤ 2 * due := by
            simp only [List.length_cons] at short
            omega
          simp [readBody?, highContinues, lowContinues, induction free shortRest]

def Body.addAll (body : Body) : List UInt8 → Body
  | high :: low :: rest => (body.add high low).addAll rest
  | _ => body

theorem readBody?_digits {body : Body} {due : Nat} {digits rest : List UInt8}
    {last : UInt8} (free : Unterminated digits) (exact : digits.length = 2 * due) :
    readBody? body due (digits ++ last :: rest) =
      some ((body.addAll digits).close last, 2 * due + 1) := by
  induction due generalizing body digits with
  | zero =>
      have nothing : digits = [] := List.length_eq_zero_iff.mp exact
      simp [nothing, readBody?, Body.addAll]
  | succ due induction =>
      match digits with
      | [] => simp at exact
      | [high] =>
          simp only [List.length_cons, List.length_nil] at exact
          omega
      | high :: low :: digits =>
          rcases unterminated_cons.mp free with ⟨highContinues, rest⟩
          rcases unterminated_cons.mp rest with ⟨lowContinues, free⟩
          have exactRest : digits.length = 2 * due := by
            simp only [List.length_cons] at exact
            omega
          simp [readBody?, highContinues, lowContinues,
            induction free exactRest, Body.addAll]
          omega

/-! ## What a body comes to -/

namespace Body

private theorem add_decoded {body : Body} {high low byte : UInt8}
    (decoded : Hex.decode? high low = some byte)
    (room : body.payload.length < maxPayload) :
    ∃ payload, payload.bytes = body.payload.bytes ++ [byte] ∧
      body.add high low = { body with payload } := by
  have fits : (body.payload.bytes ++ [byte]).length ≤ maxPayload := by
    rw [List.length_append]
    exact room
  refine ⟨⟨_, fits⟩, rfl, ?_⟩
  simp only [add, decoded, Option.bind_some, Payload.push?, Payload.ofList?, dif_pos fits]

private theorem add_undecoded {body : Body} {high low : UInt8}
    (undecoded : Hex.decode? high low = none) :
    body.add high low = { body with valid := false } := by
  simp [add, undecoded]

private theorem valid_add {body : Body} {high low : UInt8}
    (valid : (body.add high low).valid = true) : body.valid = true := by
  simp only [add] at valid
  split at valid
  · exact valid
  · cases valid

private theorem valid_addAll {body : Body} {digits : List UInt8}
    (valid : (body.addAll digits).valid = true) :
    body.valid = true := by
  fun_induction addAll body digits with
  | case1 body high low rest induction => exact valid_add (induction valid)
  | case2 => exact valid

/-- Every two digits add the byte that they spell, and anything else is remembered as
invalid. -/
theorem addAll_digits {body : Body} {due : Nat} {digits : List UInt8}
    (exact : digits.length = 2 * due) (room : body.payload.length + due ≤ maxPayload)
    (valid : body.valid = true) :
    ((body.addAll digits).valid = true ↔ ∀ byte ∈ digits, Hex.IsDigit byte) ∧
      ((body.addAll digits).valid = true →
        Hex.spell (body.addAll digits).payload.bytes = Hex.spell body.payload.bytes ++
          digits.map Hex.capital) := by
  induction due generalizing body digits with
  | zero =>
      have nothing : digits = [] := List.length_eq_zero_iff.mp exact
      simp [nothing, addAll, valid]
  | succ due induction =>
      match digits with
      | [] => simp at exact
      | [high] =>
          simp only [List.length_cons, List.length_nil] at exact
          omega
      | high :: low :: digits =>
          have exactRest : digits.length = 2 * due := by
            simp only [List.length_cons] at exact
            omega
          rw [addAll]
          cases decoded : Hex.decode? high low with
          | none =>
              rw [add_undecoded decoded]
              have stillInvalid :
                  (addAll { body with valid := false } digits).valid ≠ true := by
                intro stillValid
                cases valid_addAll stillValid
              have notDigits : ¬∀ byte ∈ high :: low :: digits, Hex.IsDigit byte := by
                intro allDigits
                have notBoth := (Hex.decode?_eq_none_iff high low).mp decoded
                exact notBoth ⟨allDigits high (by simp), allDigits low (by simp)⟩
              exact ⟨⟨fun valid => absurd valid stillInvalid, fun digits =>
                absurd digits notDigits⟩, fun valid => absurd valid stillInvalid⟩
          | some byte =>
              rcases add_decoded decoded (show body.payload.length <
                maxPayload by omega) with ⟨payload, grown, added⟩
              have roomRest : payload.length + due ≤ maxPayload := by
                simp only [Payload.length, grown, List.length_append,
                  List.length_singleton] at room ⊢
                omega
              rcases @induction { body with payload } digits exactRest roomRest valid with
                ⟨validity, spelling⟩
              have both : Hex.IsDigit high ∧ Hex.IsDigit low := by
                apply Classical.byContradiction
                intro notBoth
                rw [(Hex.decode?_eq_none_iff high low).mpr notBoth] at decoded
                cases decoded
              rw [added]
              refine ⟨?_, ?_⟩
              · rw [validity]
                simp [both.1, both.2]
              · intro allValid
                rw [spelling allValid, grown, Hex.spell_append,
                  List.map_cons, List.map_cons]
                simp [Hex.spell, ← (Hex.decode?_eq_some_iff high low byte).mp decoded]

theorem close_eq_missing_iff (body : Body) (last : UInt8) :
    body.close last = .error .missingTerminator ↔ isTerminator last = false := by
  cases ends : isTerminator last <;> cases valid : body.valid <;>
    simp [close, ends, valid]

theorem close_eq_invalid_iff (body : Body) (last : UInt8) :
    body.close last = .error .invalidHex ↔ isTerminator last = true ∧
      body.valid = false := by
  cases ends : isTerminator last <;> cases valid : body.valid <;>
    simp [close, ends, valid]

theorem close_eq_ok_iff (body : Body) (last : UInt8) (payload : Payload) :
    body.close last = .ok payload ↔ isTerminator last = true ∧ body.valid = true ∧
      body.payload = payload := by
  cases ends : isTerminator last <;> cases valid : body.valid <;>
    simp [close, ends, valid]

/-- A closed body is a payload, or was not closed by a terminator, or holds something else
than digits. -/
theorem close_cases (body : Body) (last : UInt8) :
    body.close last = .error .missingTerminator ∨ body.close last = .error .invalidHex ∨
      ∃ payload, body.close last = .ok payload := by
  cases ends : isTerminator last <;> cases valid : body.valid <;>
    simp [close, ends, valid]

variable {due : Nat} {digits : List UInt8}

private theorem room_empty (room : due ≤ maxPayload) :
    empty.payload.length + due ≤ maxPayload := by
  simpa [empty, Payload.empty, Payload.length] using room

theorem addAll_invalid_iff (exact : digits.length = 2 * due) (room : due ≤ maxPayload) :
    (empty.addAll digits).valid = false ↔ ∃ byte ∈ digits, ¬Hex.IsDigit byte := by
  have validity := (addAll_digits exact (room_empty room) rfl).1
  rw [← Bool.not_eq_true, validity]
  simp

/-- A complete body is a payload exactly if it spells the payload, up to the case of
letters. -/
theorem addAll_spells_iff (exact : digits.length = 2 * due) (room : due ≤ maxPayload)
    (payload : Payload) :
    ((empty.addAll digits).valid = true ∧ (empty.addAll digits).payload = payload) ↔
      digits.map Hex.capital = Hex.spell payload.bytes := by
  rcases addAll_digits exact (room_empty room) rfl with ⟨validity, spelling⟩
  have fromNothing : Hex.spell empty.payload.bytes = [] := rfl
  rw [fromNothing, List.nil_append] at spelling
  constructor
  · rintro ⟨valid, rfl⟩
    exact (spelling valid).symm
  · intro spelled
    have valid := validity.mpr (Hex.isDigit_of_spell spelled)
    have sameBytes := Hex.spell_injective ((spelling valid).trans spelled)
    refine ⟨valid, ?_⟩
    rcases payload with ⟨bytes, fits⟩
    subst sameBytes
    rfl

end Body

end TriggerBench.TextFrame
