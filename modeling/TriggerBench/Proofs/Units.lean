import TriggerBench.Responder.Receive

/-! # Units at the start of a stream

What is found at the start of some bytes is also found when more bytes follow them: a
verdict is never taken back. Only a stray delimiter is passed over without one.
-/

namespace TriggerBench

theorem Verdict.eq_frame_of_received {verdict : Verdict} {frame : Frame}
    (handedOn : verdict.received? = some (.frame frame)) : verdict = .frame frame := by
  cases verdict with
  | skipped => cases handedOn
  | rejected reason => cases handedOn
  | frame known =>
      cases handedOn
      rfl

namespace TextFrame

private theorem readBody?_append {body : Body} {due : Nat} {bytes : List UInt8}
    {outcome : Except Rejection Payload} {walked : Nat}
    (read : readBody? body due bytes = some (outcome, walked)) (more : List UInt8) :
    readBody? body due (bytes ++ more) = some (outcome, walked) := by
  fun_induction readBody? body due bytes generalizing walked with
  | case1 => simp at read
  | case2 body byte rest => simpa [readBody?] using read
  | case3 body due high rest ends => simpa [readBody?, ends] using read
  | case4 body due high continues => simp at read
  | case5 body due high continues low rest ends =>
      simpa [readBody?, continues, ends] using read
  | case6 body due high continues low rest lowContinues induction =>
      rcases Option.map_eq_some_iff.mp read with ⟨⟨inner, innerWalked⟩, found, equal⟩
      simp only [Prod.mk.injEq] at equal
      rcases equal with ⟨rfl, rfl⟩
      simp [readBody?, continues, lowContinues, induction found]

private theorem readBody?_walked {body : Body} {due : Nat} {bytes : List UInt8}
    {outcome : Except Rejection Payload} {walked : Nat}
    (read : readBody? body due bytes = some (outcome, walked)) :
    0 < walked ∧ walked ≤ bytes.length := by
  fun_induction readBody? body due bytes generalizing outcome walked with
  | case1 => simp at read
  | case2 | case3 | case5 =>
      simp only [Option.some.injEq, Prod.mk.injEq] at read
      simp only [List.length_cons]
      omega
  | case4 => simp at read
  | case6 body due high continues low rest lowContinues induction =>
      rcases Option.map_eq_some_iff.mp read with ⟨⟨inner, innerWalked⟩, found, equal⟩
      have bounds := induction found
      simp only [Prod.mk.injEq] at equal
      simp only [List.length_cons]
      omega

theorem examine_append {expectedLength : UInt8 → Option Nat} {bytes : List UInt8}
    {examined : Examined} (found : examine expectedLength bytes = some examined)
    (more : List UInt8) :
    examine expectedLength (bytes ++ more) = some examined := by
  cases bytes with
  | nil => simp [examine] at found
  | cons command rest =>
      cases expected : expectedLength command with
      | none => simpa [examine, expected] using found
      | some length =>
          simp only [examine, expected] at found
          rcases Option.map_eq_some_iff.mp found with ⟨⟨outcome, walked⟩, read, equal⟩
          simp [examine, expected, readBody?_append read more, ← equal]

theorem examine_released {expectedLength : UInt8 → Option Nat} {bytes : List UInt8}
    {examined : Examined} (found : examine expectedLength bytes = some examined) :
    0 < examined.released ∧ examined.released ≤ bytes.length := by
  cases bytes with
  | nil => simp [examine] at found
  | cons command rest =>
      cases expected : expectedLength command with
      | none =>
          simp only [examine, expected, Option.some.injEq] at found
          simp [← found]
      | some length =>
          simp only [examine, expected] at found
          rcases Option.map_eq_some_iff.mp found with ⟨⟨outcome, walked⟩, read, equal⟩
          have bounds := readBody?_walked read
          simp only [← equal, List.length_cons]
          omega

/-- A line of a command without a payload holds none. -/
theorem bytes_eq_nil_of_examine {expectedLength : UInt8 → Option Nat} {bytes : List UInt8}
    {examined : Examined} (found : examine expectedLength bytes = some examined)
    {frame : Frame} (isFrame : examined.verdict = .frame frame)
    (expected : expectedLength frame.command = some 0) : frame.payload.bytes = [] := by
  cases bytes with
  | nil => cases found
  | cons command rest =>
      cases known : expectedLength command with
      | none =>
          simp only [examine, known, Option.some.injEq] at found
          rw [← found] at isFrame
          cases isFrame
      | some length =>
          simp only [examine, known, Option.map_eq_some_iff] at found
          rcases found with ⟨⟨outcome, walked⟩, read, rfl⟩
          cases outcome with
          | error reason => cases isFrame
          | ok payload =>
              cases isFrame
              cases known.symm.trans expected
              cases rest with
              | nil => cases read
              | cons last rest =>
                  simp only [readBody?, Body.close, Body.empty, Option.some.injEq,
                    Prod.mk.injEq] at read
                  rcases read with ⟨closed, _⟩
                  cases ends : isTerminator last with
                  | false => simp [ends] at closed
                  | true =>
                      simp only [ends, Bool.not_true, Bool.false_eq_true, if_false,
                        Except.ok.injEq] at closed
                      rw [← closed]
                      rfl

private theorem verdict_ne_skipped (command : UInt8)
    (outcome : Except Rejection Payload) :
    verdict command outcome ≠ .skipped := by
  cases outcome <;> simp [verdict]

private theorem examine_ne_skipped {expectedLength : UInt8 → Option Nat}
    {bytes : List UInt8} {examined : Examined}
    (found : examine expectedLength bytes = some examined) :
    examined.verdict ≠ .skipped := by
  cases bytes with
  | nil => simp [examine] at found
  | cons command rest =>
      cases expected : expectedLength command with
      | none =>
          simp only [examine, expected, Option.some.injEq] at found
          simp [← found]
      | some length =>
          simp only [examine, expected] at found
          rcases Option.map_eq_some_iff.mp found with ⟨⟨outcome, walked⟩, read, equal⟩
          rw [← equal]
          exact verdict_ne_skipped command outcome

end TextFrame

namespace StuffedFrame

theorem examine_delimited {stuffed : List UInt8} (zeroFree : ∀ byte ∈ stuffed, byte ≠ 0)
    (rest : List UInt8) :
    examine (stuffed ++ 0 :: rest) =
      some { verdict := verdict stuffed, released := stuffed.length + 1 } := by
  have unit : (stuffed ++ 0 :: rest).takeWhile (· != 0) = stuffed := by
    rw [List.takeWhile_append_of_pos (by simpa using zeroFree)]
    simp
  simp [examine, unit]

theorem examine_of_zero_free {bytes : List UInt8} (zeroFree : ∀ byte ∈ bytes, byte ≠ 0) :
    examine bytes = none := by
  have unit : bytes.takeWhile (· != 0) = bytes := by
    rw [← List.append_nil bytes, List.takeWhile_append_of_pos (by simpa using zeroFree)]
    simp
  simp [examine, unit]

theorem zero_free_or_delimited (bytes : List UInt8) :
    (∀ byte ∈ bytes, byte ≠ 0) ∨
      ∃ stuffed rest, bytes = stuffed ++ 0 :: rest ∧ ∀ byte ∈ stuffed, byte ≠ 0 := by
  by_cases zero : 0 ∈ bytes
  · rcases List.append_of_mem zero with ⟨before, _, equal⟩
    rcases List.eq_append_cons_of_mem zero with ⟨stuffed, rest, split, fresh⟩
    exact .inr ⟨stuffed, rest, split, fun byte member isZero => fresh (isZero ▸ member)⟩
  · exact .inl fun byte member isZero => zero (isZero ▸ member)

theorem examine_append {bytes : List UInt8} {examined : Examined}
    (found : examine bytes = some examined) (more : List UInt8) :
    examine (bytes ++ more) = some examined := by
  rcases zero_free_or_delimited bytes with zeroFree | ⟨stuffed, rest, rfl, zeroFree⟩
  · simp [examine_of_zero_free zeroFree] at found
  · rw [List.append_assoc, List.cons_append, examine_delimited zeroFree]
    rwa [examine_delimited zeroFree] at found

theorem examine_released {bytes : List UInt8} {examined : Examined}
    (found : examine bytes = some examined) :
    0 < examined.released ∧ examined.released ≤ bytes.length := by
  rcases zero_free_or_delimited bytes with zeroFree | ⟨stuffed, rest, rfl, zeroFree⟩
  · simp [examine_of_zero_free zeroFree] at found
  · rw [examine_delimited zeroFree, Option.some.injEq] at found
    simp [← found]

theorem verdict_eq_skipped_iff (stuffed : List UInt8) :
    verdict stuffed = .skipped ↔ stuffed = [] := by
  cases stuffed with
  | nil => simp [verdict]
  | cons byte rest =>
      simp only [verdict, List.isEmpty_cons, Bool.false_eq_true, if_false,
        reduceCtorEq, iff_false]
      split
      · exact Verdict.noConfusion
      · split
        · exact Verdict.noConfusion
        · split <;> exact Verdict.noConfusion

theorem examine_skipped {bytes : List UInt8} {examined : Examined}
    (found : examine bytes = some examined) (skipped : examined.verdict = .skipped) :
    examined.released = 1 ∧ ∃ rest, bytes = 0 :: rest := by
  rcases zero_free_or_delimited bytes with zeroFree | ⟨stuffed, rest, rfl, zeroFree⟩
  · simp [examine_of_zero_free zeroFree] at found
  · rw [examine_delimited zeroFree, Option.some.injEq] at found
    subst found
    have nothing := (verdict_eq_skipped_iff stuffed).mp skipped
    subst nothing
    exact ⟨rfl, rest, rfl⟩

end StuffedFrame

namespace Responder

variable {World : Type} (responder : Responder World)

@[simp] theorem examine_nil : responder.examine [] = none := by
  simp [examine, TextFrame.examine, StuffedFrame.examine]

variable {responder}

theorem examine_append {bytes : List UInt8} {examined : Examined}
    (found : responder.examine bytes = some examined) (more : List UInt8) :
    responder.examine (bytes ++ more) = some examined := by
  unfold examine at found ⊢
  split at found
  case isTrue text => simpa [text] using TextFrame.examine_append found more
  case isFalse packets => simpa [packets] using StuffedFrame.examine_append found more

theorem examine_released {bytes : List UInt8} {examined : Examined}
    (found : responder.examine bytes = some examined) :
    0 < examined.released ∧ examined.released ≤ bytes.length := by
  unfold examine at found
  split at found
  · exact TextFrame.examine_released found
  · exact StuffedFrame.examine_released found

theorem examine_skipped {bytes : List UInt8} {examined : Examined}
    (found : responder.examine bytes = some examined)
    (skipped : examined.verdict = .skipped) :
    responder.protocol.isText = false ∧ examined.released = 1 ∧
      ∃ rest, bytes = 0 :: rest := by
  unfold examine at found
  split at found
  case isTrue text => exact absurd skipped (TextFrame.examine_ne_skipped found)
  case isFalse packets =>
    exact ⟨by simpa using packets, StuffedFrame.examine_skipped found skipped⟩

theorem examine_zero (packets : responder.protocol.isText = false) (rest : List UInt8) :
    responder.examine (0 :: rest) = some { verdict := .skipped, released := 1 } := by
  have found := StuffedFrame.examine_delimited (List.forall_mem_nil _) rest
  simpa [examine, packets, StuffedFrame.verdict] using found

end Responder

end TriggerBench
