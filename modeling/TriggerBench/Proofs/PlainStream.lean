import TriggerBench.Proofs.Ring
import TriggerBench.Proofs.Sequencing
import TriggerBench.Proofs.Units

/-! # Receiving from a plain list of bytes

Receiving goes through a ring of fixed capacity that is refilled by reads of any size.
What comes of it depends on one list alone: the staged bytes followed by those that the
port has still to deliver.
-/

namespace TriggerBench

variable {capacity : Nat} {World : Type}

namespace Responder

def trim (responder : Responder World) (stream : List UInt8) : List UInt8 :=
  if responder.protocol.isText then stream else stream.dropWhile (· == 0)

/-- What comes next in a stream, and the stream behind it: the unit that the first
`capacity` bytes hold, or else the first `capacity` bytes, which are given up. Nothing if
there are fewer. -/
def next? (responder : Responder World) (capacity : Nat) (stream : List UInt8) :
    Option (Received × List UInt8) :=
  let trimmed := responder.trim stream
  match responder.examine (trimmed.take capacity) with
  | some examined => examined.verdict.received?.map (·, trimmed.drop examined.released)
  | none =>
      if capacity ≤ trimmed.length then
        some (.dropped .overflow, trimmed.drop capacity) else none

variable {responder : Responder World}

@[simp] theorem trim_nil : responder.trim [] = [] := by
  simp [trim]

theorem trim_of_isText (text : responder.protocol.isText = true) (stream : List UInt8) :
    responder.trim stream = stream := by
  simp [trim, text]

theorem trim_zero_cons (packets : responder.protocol.isText = false)
    (stream : List UInt8) :
    responder.trim (0 :: stream) = responder.trim stream := by
  simp [trim, packets]

theorem trim_cons_of_ne {byte : UInt8} (nonzero : byte ≠ 0) (stream : List UInt8) :
    responder.trim (byte :: stream) = byte :: stream := by
  simp [trim, nonzero]

@[simp] private theorem trim_trim (stream : List UInt8) :
    responder.trim (responder.trim stream) = responder.trim stream := by
  cases text : responder.protocol.isText with
  | true => simp [trim_of_isText text]
  | false =>
      induction stream with
      | nil => simp
      | cons byte rest induction =>
          by_cases zero : byte = 0
          · rw [zero, trim_zero_cons text, induction]
          · rw [trim_cons_of_ne zero, trim_cons_of_ne zero]

theorem next?_trim (stream : List UInt8) :
    responder.next? capacity (responder.trim stream) =
      responder.next? capacity stream := by
  simp [next?]

theorem next?_congr {left right : List UInt8}
    (equal : responder.trim left = responder.trim right) :
    responder.next? capacity left = responder.next? capacity right := by
  rw [← next?_trim left, equal, next?_trim]

private theorem trim_of_not_skipped {staged : List UInt8}
    (kept : ∀ examined, responder.examine staged = some examined →
      examined.verdict ≠ .skipped) :
    responder.trim staged = staged := by
  cases text : responder.protocol.isText with
  | true => exact trim_of_isText text _
  | false =>
      cases staged with
      | nil => exact trim_nil
      | cons byte rest =>
          have nonzero : byte ≠ 0 := by
            rintro rfl
            exact kept _ (examine_zero text rest) rfl
          exact trim_cons_of_ne nonzero _

theorem trim_of_nothing {staged : List UInt8}
    (nothing : responder.examine staged = none) :
    responder.trim staged = staged := by
  apply trim_of_not_skipped
  intro examined found
  rw [nothing] at found
  cases found

theorem next?_of_examine {staged : List UInt8} {examined : Examined} {received : Received}
    (found : responder.examine staged = some examined)
    (handedOn : examined.verdict.received? = some received)
    (fits : staged.length ≤ capacity) :
    responder.next? capacity staged = some (received, staged.drop examined.released) := by
  have trimmed : responder.trim staged = staged := by
    apply trim_of_not_skipped
    intro other foundOther skipped
    cases found.symm.trans foundOther
    rw [skipped] at handedOn
    cases handedOn
  have window : staged.take capacity = staged := List.take_of_length_le fits
  simp [next?, trimmed, window, found, handedOn]

theorem next?_of_full {staged : List UInt8} (nothing : responder.examine staged = none)
    (full : staged.length = capacity) :
    responder.next? capacity staged = some (.dropped .overflow, []) := by
  have trimmed := trim_of_nothing nothing
  have window : staged.take capacity = staged :=
    List.take_of_length_le (Nat.le_of_eq full)
  simp [next?, trimmed, window, nothing, full]

theorem next?_of_waiting {staged : List UInt8} (nothing : responder.examine staged = none)
    (short : staged.length < capacity) : responder.next? capacity staged = none := by
  have trimmed := trim_of_nothing nothing
  have window : staged.take capacity = staged :=
    List.take_of_length_le (Nat.le_of_lt short)
  simp [next?, trimmed, window, nothing, Nat.not_le.mpr short]

/-! ## Bytes that follow -/

theorem trim_append (stream more : List UInt8) :
    responder.trim (responder.trim stream ++ more) = responder.trim (stream ++ more) := by
  cases text : responder.protocol.isText with
  | true => rw [trim_of_isText text stream]
  | false =>
      induction stream with
      | nil => rw [trim_nil]
      | cons byte rest induction =>
          by_cases zero : byte = 0
          · rw [zero, trim_zero_cons text, induction, List.cons_append,
              trim_zero_cons text]
          · rw [trim_cons_of_ne zero]

private theorem trim_append_of_ne_nil {stream : List UInt8}
    (nonempty : responder.trim stream ≠ []) (more : List UInt8) :
    responder.trim (stream ++ more) = responder.trim stream ++ more := by
  cases text : responder.protocol.isText with
  | true => rw [trim_of_isText text, trim_of_isText text]
  | false =>
      induction stream with
      | nil => exact absurd trim_nil nonempty
      | cons byte rest induction =>
          by_cases zero : byte = 0
          · rw [zero, trim_zero_cons text] at nonempty ⊢
            rw [List.cons_append, trim_zero_cons text, induction nonempty]
          · rw [List.cons_append, trim_cons_of_ne zero, trim_cons_of_ne zero,
              List.cons_append]

/-- Bytes that follow do not change what comes next, and are left with what it leaves. -/
theorem next?_append (positive : 0 < capacity) {stream rest : List UInt8}
    {received : Received} (next : responder.next? capacity stream = some (received, rest))
    (more : List UInt8) :
    responder.next? capacity (stream ++ more) = some (received, rest ++ more) := by
  have nonempty : responder.trim stream ≠ [] := by
    intro nothing
    simp [next?, nothing, Nat.not_le.mpr positive] at next
  have trimmed := trim_append_of_ne_nil nonempty more
  simp only [next?] at next
  split at next
  case h_1 examined found =>
      rcases Option.map_eq_some_iff.mp next with ⟨_, handedOn, equal⟩
      rcases Prod.mk.inj equal with ⟨rfl, rfl⟩
      have released := (examine_released found).2
      rw [List.length_take] at released
      have inStream : examined.released ≤ (responder.trim stream).length := by omega
      have window : responder.examine ((responder.trim stream ++ more).take capacity) =
          some examined := by
        rw [List.take_append]
        exact examine_append found _
      simp [next?, trimmed, window, handedOn, List.drop_append_of_le_length inStream]
  case h_2 nothing =>
      split at next
      case isTrue full =>
          cases next
          have window : (responder.trim stream ++ more).take capacity =
              (responder.trim stream).take capacity :=
            List.take_append_of_le_length full
          have longer : capacity ≤ (responder.trim stream ++ more).length := by
            rw [List.length_append]
            omega
          simp only [next?, trimmed, window, nothing, if_pos longer,
            List.drop_append_of_le_length full]
      case isFalse => cases next

/-- Where there are no cells, nothing is held, and the stray delimiters of what is left
may not be the same. -/
theorem next?_append_trim {stream rest : List UInt8} {received : Received}
    (next : responder.next? capacity stream = some (received, rest)) (more : List UInt8) :
    ∃ left, responder.next? capacity (stream ++ more) = some (received, left) ∧
      responder.trim left = responder.trim (rest ++ more) := by
  rcases Nat.eq_zero_or_pos capacity with rfl | positive
  · have givenUp : ∀ bytes,
        responder.next? 0 bytes = some (.dropped .overflow, responder.trim bytes) := by
      intro bytes
      simp [next?]
    cases (givenUp stream).symm.trans next
    exact ⟨_, givenUp _, by rw [trim_trim, trim_append]⟩
  · exact ⟨_, next?_append positive next more, rfl⟩

/-! ## All units of a stream -/

theorem length_trim_le (responder : Responder World) (stream : List UInt8) :
    (responder.trim stream).length ≤ stream.length := by
  rw [trim]
  split
  · exact Nat.le_refl _
  · exact (List.dropWhile_sublist _).length_le

theorem next?_shorter (positive : 0 < capacity) {stream rest : List UInt8}
    {received : Received}
    (next : responder.next? capacity stream = some (received, rest)) :
    rest.length < stream.length := by
  have trimmed := length_trim_le responder stream
  simp only [next?] at next
  split at next
  case h_1 examined found =>
      rcases Option.map_eq_some_iff.mp next with ⟨_, _, equal⟩
      rcases Prod.mk.inj equal with ⟨_, rfl⟩
      have released := examine_released found
      rw [List.length_take] at released
      rw [List.length_drop]
      omega
  case h_2 =>
      split at next
      case isTrue full =>
          cases next
          rw [List.length_drop]
          omega
      case isFalse => cases next

def unitsWithin (responder : Responder World) (capacity : Nat) :
    (count : Nat) → List UInt8 → List Received
  | 0, _ => []
  | count + 1, stream =>
      match responder.next? capacity stream with
      | none => []
      | some (received, rest) => received :: responder.unitsWithin capacity count rest

def unitsIn (responder : Responder World) (capacity : Nat)
    (stream : List UInt8) : List Received :=
  responder.unitsWithin capacity stream.length stream

private theorem unitsWithin_enough (positive : 0 < capacity) {count other : Nat}
    {stream : List UInt8} (enough : stream.length ≤ count)
    (alsoEnough : stream.length ≤ other) :
    responder.unitsWithin capacity count stream =
      responder.unitsWithin capacity other stream := by
  induction count generalizing other stream with
  | zero =>
      rw [List.length_eq_zero_iff.mp (Nat.le_zero.mp enough)]
      cases other with
      | zero => rfl
      | succ other =>
          rw [unitsWithin, unitsWithin, next?_of_waiting (examine_nil responder) positive]
  | succ count induction =>
      cases next : responder.next? capacity stream with
      | none =>
          rw [unitsWithin, next]
          cases other with
          | zero => rfl
          | succ other => rw [unitsWithin, next]
      | some unit =>
          rcases unit with ⟨received, rest⟩
          have shorter := next?_shorter positive next
          cases other with
          | zero => omega
          | succ other =>
              rw [unitsWithin, unitsWithin, next]
              simp only
              rw [@induction other rest (by omega) (by omega)]

theorem unitsIn_of_next (positive : 0 < capacity) {stream rest : List UInt8}
    {received : Received}
    (next : responder.next? capacity stream = some (received, rest)) :
    responder.unitsIn capacity stream = received :: responder.unitsIn capacity rest := by
  have shorter := next?_shorter positive next
  rcases Nat.exists_eq_add_of_lt shorter with ⟨others, isLength⟩
  have enough : rest.length ≤ rest.length + others := Nat.le_add_right _ _
  rw [unitsIn, isLength, unitsWithin, next]
  exact congrArg (received :: ·) (unitsWithin_enough positive enough (Nat.le_refl _))

theorem unitsIn_of_nothing {stream : List UInt8}
    (nothing : responder.next? capacity stream = none) :
    responder.unitsIn capacity stream = [] := by
  rw [unitsIn]
  cases stream.length with
  | zero => rfl
  | succ others => rw [unitsWithin, nothing]

theorem unitsIn_congr (positive : 0 < capacity) {left right : List UInt8}
    (equal : responder.trim left = responder.trim right) :
    responder.unitsIn capacity left = responder.unitsIn capacity right := by
  have sameNext : responder.next? capacity left = responder.next? capacity right :=
    next?_congr equal
  cases next : responder.next? capacity left with
  | none => rw [unitsIn_of_nothing next, unitsIn_of_nothing (sameNext.symm.trans next)]
  | some unit =>
      rw [unitsIn_of_next positive next,
        unitsIn_of_next positive (sameNext.symm.trans next)]

end Responder

end TriggerBench
