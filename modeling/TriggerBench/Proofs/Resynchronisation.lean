import TriggerBench.Proofs.Reporting
import TriggerBench.Proofs.WireForms

/-! # Coming back into step

Whatever a stream holds, a delimiter in it is the last byte of the unit that uses it up.
What follows the delimiter is therefore taken as if the stream had begun there, however
the bytes before it were received, dropped or given up.
-/

namespace TriggerBench

open Simulation

namespace Responder

section Streams

variable {World : Type} {responder : Responder World} {capacity : Nat} {delimiter : UInt8}
  {garbage rest stream tail : List UInt8}

/-- A byte that ends whatever unit it stands in: the zero behind a packet, or a terminator
that is not itself a command. -/
def Delimits (responder : Responder World) (byte : UInt8) : Prop :=
  if responder.protocol.isText then
    (byte = '\n'.toUInt8 ∨ byte = '\r'.toUInt8) ∧ responder.table.find? byte = none
  else byte = 0

private theorem expectedLength_delimiter (text : responder.protocol.isText = true)
    (delimits : responder.Delimits delimiter) :
    TextFrame.isTerminator delimiter = true ∧
      responder.expectedLength delimiter = none := by
  rw [Delimits, if_pos text] at delimits
  rcases delimits with ⟨ends, unregistered⟩
  refine ⟨(TextFrame.isTerminator_iff delimiter).mpr ends, ?_⟩
  have notVersion : (delimiter == versionCommand) = false := by
    rcases ends with rfl | rfl <;> rfl
  simp [expectedLength, unregistered, notVersion]

/-- Bytes that end in a delimiter hold a unit. -/
theorem examine_delimited (delimits : responder.Delimits delimiter)
    (garbage : List UInt8) :
    ∃ examined, responder.examine (garbage ++ [delimiter]) = some examined := by
  cases text : responder.protocol.isText with
  | true =>
      rcases expectedLength_delimiter text delimits with ⟨ends, unknown⟩
      rw [examine_eq_of_isText text]
      cases garbage with
      | nil =>
          simp only [List.nil_append, TextFrame.examine, unknown]
          exact ⟨_, rfl⟩
      | cons command garbage =>
          rw [List.cons_append]
          cases expected : responder.expectedLength command with
          | none =>
              simp only [TextFrame.examine, expected]
              exact ⟨_, rfl⟩
          | some length =>
              rcases TextFrame.unterminated_cases (2 * length)
                (garbage ++ [delimiter]) with ⟨before, terminator, behind, isBody, free,
                  isEnd, inside⟩ | ⟨before, last, behind, isBody, free, all⟩ | ⟨free, _⟩
              · exact ⟨_, by rw [isBody,
                  TextFrame.examine_early expected free isEnd inside]⟩
              · exact ⟨_, by rw [isBody, TextFrame.examine_complete expected free all]⟩
              · rw [free delimiter (by simp)] at ends
                cases ends
  | false =>
      simp only [Delimits, text, Bool.false_eq_true, if_false] at delimits
      subst delimits
      simp only [examine, text, Bool.false_eq_true, if_false]
      rcases StuffedFrame.zero_free_or_delimited (garbage ++ [0]) with
        zeroFree | ⟨stuffed, behind, isSplit, zeroFree⟩
      · exact absurd rfl (zeroFree 0 (by simp))
      · exact ⟨_, by rw [isSplit, StuffedFrame.examine_delimited zeroFree]⟩

private theorem trim_ne_zero_cons (packets : responder.protocol.isText = false)
    (stream rest : List UInt8) :
    responder.trim stream ≠ 0 :: rest := by
  intro isZero
  have notZero := List.head?_dropWhile_not (· == (0 : UInt8)) stream
  simp only [trim, packets, Bool.false_eq_true, if_false] at isZero
  simp [isZero] at notZero

/-- The unit that is found in a window of a stream is handed on: there are no stray
delimiters at its start. -/
theorem next?_of_window {examined : Examined}
    (found : responder.examine ((responder.trim stream).take capacity) = some examined) :
    ∃ received, responder.next? capacity stream =
      some (received, (responder.trim stream).drop examined.released) := by
  obtain ⟨received, handedOn⟩ : ∃ received,
      examined.verdict.received? = some received := by
    cases verdict : examined.verdict with
    | skipped =>
        rcases examine_skipped found verdict with ⟨packets, _, behind, isZero⟩
        cases trimmed : responder.trim stream with
        | nil => simp [trimmed] at isZero
        | cons byte more =>
            cases capacity with
            | zero => simp at isZero
            | succ capacity =>
                rw [trimmed, List.take_succ_cons, List.cons.injEq] at isZero
                exact absurd (isZero.1 ▸ trimmed) (trim_ne_zero_cons packets stream more)
    | rejected reason => exact ⟨_, rfl⟩
    | frame frame => exact ⟨_, rfl⟩
  exact ⟨received, by simp only [next?, found, handedOn, Option.map_some]⟩

/-- A window of a stream that reaches behind a delimiter holds the unit that is found when
nothing follows it. -/
theorem examine_window (delimits : responder.Delimits delimiter)
    (ahead : responder.trim stream = garbage ++ delimiter :: tail)
    (inside : garbage.length < capacity) :
    ∃ examined, responder.examine ((responder.trim stream).take capacity) =
        some examined ∧ examined.released ≤ garbage.length + 1 := by
  rcases examine_delimited delimits garbage with ⟨examined, found⟩
  have window : (responder.trim stream).take capacity =
      (garbage ++ [delimiter]) ++ tail.take (capacity - (garbage.length + 1)) := by
    rw [ahead, List.append_cons, List.take_append,
      List.take_of_length_le (by simp; omega)]
    simp
  have released := (examine_released found).2
  refine ⟨examined, by rw [window, examine_append found], ?_⟩
  simpa using released

/-- What is used up of a stream next ends at its delimiter or before. -/
theorem next?_of_delimited (positive : 0 < capacity)
    (delimits : responder.Delimits delimiter)
    (ahead : responder.trim stream = garbage ++ delimiter :: tail) :
    ∃ received rest, responder.next? capacity stream = some (received, rest) ∧
      rest.length < (responder.trim stream).length ∧
      (rest = tail ∨ ∃ left, rest = left ++ delimiter :: tail) := by
  obtain ⟨received, count, next, used, upTo⟩ : ∃ received count,
      responder.next? capacity stream = some (received,
        (responder.trim stream).drop count) ∧ 0 < count ∧ count ≤ garbage.length + 1 := by
    cases found : responder.examine ((responder.trim stream).take capacity) with
    | some examined =>
        rcases next?_of_window found with ⟨received, next⟩
        refine ⟨received, examined.released, next, (examine_released found).1, ?_⟩
        rcases Nat.lt_or_ge garbage.length capacity with inside | outside
        · rcases examine_window delimits ahead inside with ⟨known, foundKnown, upTo⟩
          cases found.symm.trans foundKnown
          exact upTo
        · have released := (examine_released found).2
          rw [List.length_take] at released
          omega
    | none =>
        -- A window without a unit ends before the delimiter.
        have outside : capacity ≤ garbage.length := by
          apply Nat.le_of_not_lt
          intro inside
          rcases examine_window delimits ahead inside with ⟨known, foundKnown, _⟩
          cases found.symm.trans foundKnown
        have long : capacity ≤ (responder.trim stream).length := by
          rw [ahead, List.length_append]
          omega
        exact ⟨.dropped .overflow, capacity, by simp only [next?, found, if_pos long],
          positive, by omega⟩
  refine ⟨received, _, next, ?_, ?_⟩
  · rw [List.length_drop, ahead, List.length_append, List.length_cons]
    omega
  · rcases Nat.lt_or_ge garbage.length count with through | before
    · have all : count = (garbage ++ [delimiter]).length := by
        simp only [List.length_append, List.length_singleton]
        omega
      rw [ahead, List.append_cons, all, List.drop_left]
      exact .inl rfl
    · rw [ahead, List.drop_append_of_le_length before]
      exact .inr ⟨_, rfl⟩

/-- A stream in which the tail comes next, or a delimiter before the tail is still to
come. -/
def Approaches (responder : Responder World) (delimiter : UInt8)
    (tail stream : List UInt8) : Prop :=
  responder.trim stream = responder.trim tail ∨
    ∃ garbage, responder.trim stream = garbage ++ delimiter :: tail

theorem Approaches.congr {other : List UInt8}
    (approaches : responder.Approaches delimiter tail stream)
    (same : responder.trim other = responder.trim stream) :
    responder.Approaches delimiter tail other := by
  rwa [Approaches, same]

theorem approaches_of_delimited (delimits : responder.Delimits delimiter)
    (garbage tail : List UInt8) :
    responder.Approaches delimiter tail (garbage ++ delimiter :: tail) := by
  cases text : responder.protocol.isText with
  | true => exact .inr ⟨garbage, trim_of_isText text _⟩
  | false =>
      have isZero : delimiter = 0 := by simpa [Delimits, text] using delimits
      subst isZero
      induction garbage with
      | nil => exact .inl (trim_zero_cons text tail)
      | cons byte garbage induction =>
          by_cases stray : byte = 0
          · subst stray
            exact induction.congr (trim_zero_cons text _)
          · exact .inr ⟨byte :: garbage, trim_cons_of_ne stray _⟩

end Streams

/-! ## Polling up to a frame -/

section Polling

variable {Memory : Type} {capacity : Nat} {responder : Responder (Bench Memory)}
  {entry : CommandEntry (Bench Memory)} {name : Nat} {handler : Handler Memory}
    {delimiter : UInt8} {frame : Frame}
  {wire rest : List UInt8} {link : Link capacity (Bench Memory)}

def remaining (responder : Responder (Bench Memory))
    (link : Link capacity (Bench Memory)) : Nat :=
  (responder.trim link.toCome).length + link.world.line.supply

structure Takes (responder : Responder (Bench Memory)) (name : Nat)
    (handler : Handler Memory) (frame : Frame) (wire rest : List UInt8)
    (link : Link capacity (Bench Memory)) : Prop where
  comesNext : responder.trim link.toCome = wire ++ rest
  carriesOut : (responder.poll link).1.CarriesOut responder.protocol name handler
    frame.request link.world (responder.poll link).2.world
  left : responder.trim (responder.poll link).2.toCome = responder.trim rest

/-- Behind a poll, the delimiter that is ahead is still ahead or what follows it comes
next, and less is to come. -/
theorem poll_nears (attends : responder.Attends) (delimits : responder.Delimits delimiter)
    (positive : 0 < capacity) (wellFormed : link.staged.WellFormed)
    (flows : link.world.line.Flows) {garbage tail : List UInt8}
    (ahead : responder.trim link.toCome = garbage ++ delimiter :: tail) :
    responder.Approaches delimiter tail (responder.poll link).2.toCome ∧
      responder.remaining (responder.poll link).2 < responder.remaining link := by
  have supplied := (poll_keeps attends wellFormed).supplied
  rcases next?_of_delimited positive delimits ahead with
    ⟨received, behind, next, shorter, through⟩
  have advanced := poll_advanced attends wellFormed flows next
  generalize responder.poll link = polled at advanced supplied ⊢
  cases advanced with
  | answered _ _ left =>
      have stillAhead : responder.Approaches delimiter tail behind := by
        rcases through with rfl | ⟨more, rfl⟩
        · exact .inl rfl
        · exact approaches_of_delimited delimits more _
      have leftLe := responder.length_trim_le behind
      refine ⟨stillAhead.congr left, ?_⟩
      simp only [remaining, left] at supplied ⊢
      omega
  | starved left ebbed =>
      refine ⟨.inr ⟨garbage, left.trans ahead⟩, ?_⟩
      simp only [remaining, left]
      omega

variable (attends : responder.Attends) (delimits : responder.Delimits delimiter)
  (found : responder.table.find? frame.command = some entry)
    (fits : entry.length = frame.payload.length)
  (isAttended : entry.handler = Bench.attended name handler)
    (written : frame.Written responder.protocol wire)
  (inCapacity : wire.length ≤ capacity)
include attends delimits found fits isAttended written inCapacity

/-- A poll takes the frame that is ahead, or the frame is still ahead behind it and less
is to come. -/
theorem poll_approaches (wellFormed : link.staged.WellFormed)
    (flows : link.world.line.Flows)
    (approaches : responder.Approaches delimiter (wire ++ rest) link.toCome) :
    responder.Takes name handler frame wire rest link ∨
      (responder.Approaches delimiter (wire ++ rest) (responder.poll link).2.toCome ∧
        responder.remaining (responder.poll link).2 < responder.remaining link) := by
  have supplied := (poll_keeps attends wellFormed).supplied
  rcases approaches with comesNext | ⟨garbage, ahead⟩
  · rw [trim_written written] at comesNext
    have next :=
      next?_of_written written (expects_of_found found fits) inCapacity comesNext
    have advanced := poll_advanced attends wellFormed flows next
    generalize ran : responder.poll link = polled at advanced supplied ⊢
    cases advanced with
    | @answered middle after read world left =>
        have carriesOut := answer_frame_carriesOut found fits isAttended read.onlyReads
        simp only [← world] at carriesOut
        refine .inl ⟨comesNext, ?_, ?_⟩
        · rw [ran]
          exact carriesOut.of_readFrom read
        · rw [ran]
          exact left
    | starved left ebbed =>
        have wireAhead := comesNext.trans (trim_written written rest).symm
        refine .inr ⟨.inl (left.trans wireAhead), ?_⟩
        simp only [remaining, left]
        omega
  · have positive : 0 < capacity :=
      Nat.lt_of_lt_of_le (List.length_pos_iff.mpr written.ne_nil) inCapacity
    exact .inr (poll_nears attends delimits positive wellFormed flows ahead)

private theorem polls_approach (wellFormed : link.staged.WellFormed)
    (flows : link.world.line.Flows)
    (approaches : responder.Approaches delimiter (wire ++ rest) link.toCome) :
    ∃ times ≤ responder.remaining link,
      responder.Takes name handler frame wire rest (responder.polls times link).2 := by
  generalize measured : responder.remaining link = budget
  induction budget using Nat.strongRecOn generalizing link with
  | ind budget induction =>
      rcases poll_approaches attends delimits found fits isAttended written inCapacity
        wellFormed flows approaches with takes | ⟨stillAhead, lower⟩
      · exact ⟨0, Nat.zero_le _, takes⟩
      · have kept := poll_keeps attends wellFormed
        rw [measured] at lower
        rcases induction _ lower kept.wellFormed (kept.flows flows) stillAhead rfl with
          ⟨times, timesLe, takes⟩
        exact ⟨times + 1, Nat.lt_of_le_of_lt timesLe lower, takes⟩

end Polling

variable {Memory : Type} {capacity : Nat}

/-- Whatever comes before a delimiter, polling comes to a poll that takes the frame behind
it, with all of the bytes of the frame, and has it carried out. The frame is one of a
registered command with the registered length, and its wire form fits into the ring.
Nothing is supposed of the bytes before the delimiter, of how the stream is split between
the ring and the reads of the port, or of what became of earlier frames. -/
theorem polls_resynchronise (responder : Responder Memory) {delimiter : UInt8}
    (delimits : responder.Delimits delimiter) {frame : Frame}
    {entry : CommandEntry Memory}
    (found : responder.table.find? frame.command = some entry)
    (fits : entry.length = frame.payload.length) {wire : List UInt8}
    (written : frame.Written responder.protocol wire)
    (inCapacity : wire.length ≤ capacity) {link : Link capacity (Bench Memory)}
    (wellFormed : link.staged.WellFormed) (flows : link.world.line.Flows)
    {garbage rest : List UInt8}
    (ahead : link.toCome = garbage ++ delimiter :: (wire ++ rest)) :
    ∃ times ≤ link.toCome.length + link.world.line.supply,
      responder.attended.Takes frame.command.toNat entry.handler frame wire rest
        (responder.attended.polls times link).2 := by
  have attendedDelimits : responder.attended.Delimits delimiter := by
    rw [Delimits, attended_find?, Option.map_eq_none_iff]
    exact delimits
  have attendedFound := responder.attended_find? frame.command
  rw [found] at attendedFound
  have sameCommand : entry.command = frame.command := by
    simpa using List.find?_some found
  have approaches : responder.attended.Approaches delimiter (wire ++ rest)
      link.toCome := by
    rw [ahead]
    exact approaches_of_delimited attendedDelimits garbage (wire ++ rest)
  have enough : responder.attended.remaining link ≤
      link.toCome.length + link.world.line.supply :=
    Nat.add_le_add_right (responder.attended.length_trim_le link.toCome) _
  rcases polls_approach responder.attended_attends attendedDelimits attendedFound fits rfl
    written inCapacity wellFormed flows approaches with ⟨times, timesLe, takes⟩
  rw [sameCommand] at takes
  exact ⟨times, Nat.le_trans timesLe enough, takes⟩

end Responder

/-- A stream that overruns a ring of eight bytes before a delimiter comes, and is read
three bytes at a time. Behind the delimiter comes a packet. -/
def Link.derailed : Link 8 (Bench Unit) where
  staged :=
    { cells := #v[0x00, 0x31, 0x00, 0x00, 0x00, 0x00, 0x05, 0x00], start := 6, size := 4 }
  world :=
    { Bench.plain with
      line :=
        { Bench.plain.line with
          deliveries :=
            [.bytes [0x31, 0x31, 0x31, 0x31, 0x31, 0x31, 0x31], .failure,
              .bytes [0x31, 0x31, 0x00, 0x02, 0x31],
              .bytes [0x04, 0x01, 0x41, 0x0B, 0x00]]
          readLimit := some 3 } }

def Frame.oneByte : Frame where
  command := 0x31
  subcommand := 0x00
  payload := ⟨[0x41], (by decide : 1 ≤ maxPayload)⟩

theorem Responder.derailed_resynchronises :
    let wire := [0x02, 0x31, 0x04, 0x01, 0x41, 0x0B, 0x00]
    Link.derailed.staged.WellFormed ∧ Link.derailed.world.line.Flows ∧
      Frame.oneByte.Written Responder.ofOnePacket.protocol wire ∧ wire.length ≤ 8 ∧
      Link.derailed.toCome = [0x05, 0x00, 0x00] ++ List.replicate 10 0x31 ++ 0x00 ::
        (wire ++ []) ∧
      ∃ times ≤ 42, Responder.ofOnePacket.attended.Takes 0x31 (fun _ reply =>
        pure { status := 0, reply }) Frame.oneByte
        wire [] (Responder.ofOnePacket.attended.polls times Link.derailed).2 := by
  intro wire
  have wellFormed : Link.derailed.staged.WellFormed := ⟨by decide, by decide⟩
  have flows : Link.derailed.world.line.Flows := by
    intro noRead
    cases noRead
  have isForm : StuffedFrame.form Frame.oneByte ++ [0] = wire := by decide +kernel
  have written : Frame.oneByte.Written Responder.ofOnePacket.protocol wire := by
    rw [← isForm]
    exact .packet rfl
  have ahead : Link.derailed.toCome = [0x05, 0x00, 0x00] ++ List.replicate 10 0x31 ++
      0x00 :: (wire ++ []) := by
    decide +kernel
  have budget : Link.derailed.toCome.length + Link.derailed.world.line.supply =
    42 := by decide +kernel
  have delimits : Responder.ofOnePacket.Delimits 0x00 := rfl
  have taken :=
    Responder.polls_resynchronise Responder.ofOnePacket delimits rfl rfl written
      (by decide) wellFormed flows ahead
  rw [budget] at taken
  exact ⟨wellFormed, flows, written, by decide, ahead, taken⟩

end TriggerBench
