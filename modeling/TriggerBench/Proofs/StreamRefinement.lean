import TriggerBench.Proofs.Answering

/-! # Polls and the plain list of bytes

However the bytes to come are split between the ring and the deliveries of the port,
polling does what a reference does that takes one unit after the other from the plain list
of them.
-/

namespace TriggerBench

open Simulation

variable {Memory : Type} {capacity : Nat}

namespace Simulation.Bench

def withoutInput (bench : Bench Memory) : Bench Memory :=
  { bench with line := bench.line.delivering [], log := [] }

@[simp] private theorem withoutInput_altered (deliveries : List Delivery)
    (earlier : List Event) (bench : Bench Memory) :
    (bench.altered (Line.delivering deliveries) earlier).withoutInput =
      bench.withoutInput := by
  simp [withoutInput, altered, Line.delivering]

@[simp] private theorem withoutInput_withoutInput (bench : Bench Memory) :
    bench.withoutInput.withoutInput = bench.withoutInput :=
  rfl

theorem ReadFrom.eq_altered {before after : Bench Memory}
    (read : ReadFrom before.cleared after) :
    ∃ deliveries reads, (∀ event ∈ reads, event.isRead) ∧
      after = before.withoutInput.altered (Line.delivering deliveries) reads := by
  rcases read with ⟨deliveries, reads, areReads, rfl⟩
  exact ⟨deliveries, reads,
    areReads, by simp [cleared, withoutInput, altered, Line.delivering]⟩

end Simulation.Bench

namespace Responder

def plainPoll (responder : Responder (Bench Memory)) (received : Received)
    (bench : Bench Memory) : Poll × Bench Memory :=
  Poll.ofResult id (responder.answer Bench.port received bench.withoutInput)

/-- Polls that take what comes next from a plain list of bytes, as long as there is
something: the polls, the rest of the list, and the bench behind them. -/
def plainPolls (responder : Responder (Bench Memory)) (capacity : Nat) :
    (times : Nat) → List UInt8 → Bench Memory → List Poll × List UInt8 × Bench Memory
  | 0, stream, bench => ([], stream, bench)
  | times + 1, stream, bench =>
      match responder.next? capacity stream with
      | none => ([], stream, bench)
      | some (received, rest) =>
          let (first, after) := responder.plainPoll received bench
          let (polls, final) := responder.plainPolls capacity times rest after
          (first :: polls, final)

/-! ## One poll -/

private theorem ofResult_altered (deliveries : List Delivery) (reads : List Event)
    (result : EStateM.Result Interruption (Bench Memory) Outcome) :
    Poll.ofResult id (changed (Bench.altered (Line.delivering deliveries) reads) result) =
      ({ result := (Poll.ofResult id result).1.result,
         log := reads ++ (Poll.ofResult id result).1.log },
        (Poll.ofResult id result).2.altered (Line.delivering deliveries) reads) := by
  cases result <;> rfl

private theorem plainPoll_withReads (responder : Responder Memory) (received : Received)
    (bench : Bench Memory) {reads : List Event}
    (areReads : ∀ event ∈ reads, event.isRead) :
    let plain := (responder.attended.plainPoll received bench).1
    let poll : Poll := { result := plain.result, log := reads ++ plain.log }
    poll.isStarved = false ∧ poll.withoutReads = plain := by
  have filtered : ∀ {events : List Event}, (∀ event ∈ events, event.isRead = false) →
      ((reads ++ events).filter fun event => !event.isRead) = events := by
    intro events noReads
    rw [List.filter_append, List.filter_eq_nil_iff.mpr (by simpa using areReads),
      List.filter_eq_self.mpr (by simpa using noReads), List.nil_append]
  have answered := answer_answered responder.attended_attends received bench.withoutInput
  rw [plainPoll]
  generalize responder.attended.answer Bench.port received bench.withoutInput =
    result at answered
  cases answered with
  | completed noReads logged =>
      simp only [Bench.withoutInput, List.nil_append] at logged
      simp only [Poll.ofResult, Poll.isStarved, Poll.withoutReads, id_eq, logged,
        filtered noReads, and_self]
  | @failed reason events after noReads logged nonempty notRead notEnd =>
      simp only [Bench.withoutInput, List.nil_append] at logged
      simp only [Poll.ofResult, Poll.withoutReads, id_eq, logged,
        filtered noReads, and_true]
      rcases List.exists_mem_of_ne_nil events nonempty with ⟨event, member⟩
      have notAll : (reads ++ events).all Event.isRead = false := by
        rw [List.all_eq_false]
        exact ⟨event, List.mem_append_right reads member, by simp [noReads event member]⟩
      simp only [Poll.isStarved]
      split
      case h_1 isFailure => cases isFailure; exact absurd rfl notRead
      case h_2 isEnd => cases isEnd; exact absurd rfl notEnd
      case h_3 => exact notAll
      case h_4 => rfl

inductive Polled (responder : Responder Memory) (link : Link capacity (Bench Memory)) :
    Poll × Link capacity (Bench Memory) → Prop
  | answered {received rest poll after}
      (next : responder.attended.next? capacity link.toCome = some (received, rest))
      (notStarved : poll.isStarved = false)
      (same : poll.withoutReads = (responder.attended.plainPoll received link.world).1)
      (left : responder.attended.trim after.toCome = responder.attended.trim rest)
      (wellFormed : after.staged.WellFormed)
      (world : after.world.withoutInput =
        (responder.attended.plainPoll received link.world).2.withoutInput) :
      Polled responder link (poll, after)
  | starved {poll after} (isStarved : poll.isStarved = true)
      (onlyReads : ∀ event ∈ poll.log, event.isRead)
      (nothing : responder.attended.next? capacity after.staged.toList = none)
      (left : responder.attended.trim after.toCome = responder.attended.trim link.toCome)
      (wellFormed : after.staged.WellFormed)
      (world : after.world.withoutInput = link.world.withoutInput) :
      Polled responder link (poll, after)

private theorem poll_polled (responder : Responder Memory)
    {link : Link capacity (Bench Memory)} (wellFormed : link.staged.WellFormed) :
    Polled responder link (responder.attended.poll link) := by
  have served := poll_served responder.attended wellFormed
  generalize responder.attended.poll link = polled at served ⊢
  cases served with
  | @answered received rest middle _ next left stillWellFormed read _ =>
      rcases Bench.ReadFrom.eq_altered read with ⟨deliveries, reads, areReads, world⟩
      -- The reads that came before do not matter to the answer: it is the one on a bench
      -- that has nothing to read.
      have answered :=
        (Commutes.compositional _).answer (Bench.port_sendsThrough deliveries reads)
          ((Commutes.compositional _).settle _ (Bench.attended_handlers responder)
            received) link.world.withoutInput
      have plain := plainPoll_withReads responder received link.world areReads
      rw [world, answered, ofResult_altered]
      refine .answered next plain.1 plain.2 ?_ stillWellFormed ?_
      · rw [← left]
        simp only [Link.toCome, Link.stream, world]
        rfl
      · rw [Bench.withoutInput_altered]
        rfl
  | @starved reason after isStarved nothing left stillWellFormed read _ _ =>
      rcases Bench.ReadFrom.eq_altered read with ⟨deliveries, reads, areReads, world⟩
      exact .starved isStarved read.onlyReads nothing left stillWellFormed
        (by rw [world]; simp)

/-! ## A run of polls -/

def servedPolls (polls : List Poll) : List Poll :=
  polls.filter fun poll => !poll.isStarved

structure AgreesWith (responder : Responder Memory)
    (run : List Poll × Link capacity (Bench Memory))
    (plain : List Poll × List UInt8 × Bench Memory) : Prop where
  polls : (servedPolls run.1).map Poll.withoutReads = plain.1
  left : responder.attended.trim run.2.toCome = responder.attended.trim plain.2.1
  world : run.2.world.withoutInput = plain.2.2.withoutInput
  wellFormed : run.2.staged.WellFormed

/-- Stray delimiters at the start of the list, deliveries and the log make no difference
to what comes next. -/
theorem AgreesWith.congr {responder : Responder Memory}
    {run : List Poll × Link capacity (Bench Memory)} {left right : List UInt8}
    {leftBench rightBench : Bench Memory} {times : Nat}
    (agrees : AgreesWith responder run
      (responder.attended.plainPolls capacity times left leftBench))
    (sameStream : responder.attended.trim left = responder.attended.trim right)
    (sameBench : leftBench.withoutInput = rightBench.withoutInput) :
    AgreesWith responder run
      (responder.attended.plainPolls capacity times right rightBench) := by
  cases times with
  | zero =>
      exact ⟨agrees.polls, agrees.left.trans sameStream, agrees.world.trans sameBench,
        agrees.wellFormed⟩
  | succ times =>
      have sameNext : responder.attended.next? capacity left =
          responder.attended.next? capacity right :=
        next?_congr sameStream
      have samePoll : ∀ received, responder.attended.plainPoll received leftBench =
          responder.attended.plainPoll received rightBench := by
        intro received
        rw [plainPoll, plainPoll, sameBench]
      simp only [plainPolls, sameNext, samePoll] at agrees ⊢
      cases next : responder.attended.next? capacity right with
      | some received =>
          simp only [next] at agrees
          exact agrees
      | none =>
          simp only [next] at agrees
          exact ⟨agrees.polls, agrees.left.trans sameStream, agrees.world.trans sameBench,
            agrees.wellFormed⟩

private theorem polls_agreesWith (responder : Responder Memory) (times : Nat)
    {link : Link capacity (Bench Memory)} (wellFormed : link.staged.WellFormed) :
    AgreesWith responder (responder.attended.polls times link)
      (responder.attended.plainPolls capacity
        (servedPolls (responder.attended.polls times link).1).length link.toCome
        link.world) := by
  induction times generalizing link with
  | zero => exact ⟨rfl, rfl, rfl, wellFormed⟩
  | succ times induction =>
      have polled := poll_polled responder wellFormed
      rw [polls_succ]
      generalize responder.attended.poll link = first at polled ⊢
      cases polled with
      | @answered received rest poll after next notStarved same left
          stillWellFormed world =>
          have agrees := (induction stillWellFormed).congr left world
          have kept : servedPolls (poll :: (responder.attended.polls times after).1) =
              poll :: servedPolls (responder.attended.polls times after).1 := by
            simp [servedPolls, notStarved]
          rw [kept, List.length_cons]
          simp only [plainPolls, next]
          refine ⟨?_, agrees.left, agrees.world, agrees.wellFormed⟩
          rw [kept, List.map_cons, same, agrees.polls]
      | @starved poll after isStarved onlyReads nothing left stillWellFormed world =>
          have agrees := (induction stillWellFormed).congr left world
          have dropped : servedPolls (poll :: (responder.attended.polls times after).1) =
              servedPolls (responder.attended.polls times after).1 := by
            simp [servedPolls, isStarved]
          rw [dropped]
          refine ⟨?_, agrees.left, agrees.world, agrees.wellFormed⟩
          rw [dropped, agrees.polls]

/-- However the bytes to come are split between the ring and the reads of the port, the
polls that do not end with a read do what the plain list of these bytes says. A poll that
ends with a read only reads; it leaves the list as it was, up to stray delimiters at its
start, and had nothing that it could have answered. -/
theorem polls_refine_plain_list (responder : Responder Memory)
    {link : Link capacity (Bench Memory)} (wellFormed : link.staged.WellFormed)
    (times : Nat) :
    let run := responder.attended.polls times link
    AgreesWith responder run
        (responder.attended.plainPolls capacity (servedPolls run.1).length
          link.toCome link.world) ∧
      let next := responder.attended.poll run.2
      next.1.isStarved = true →
        (∀ event ∈ next.1.log, event.isRead) ∧
          responder.attended.trim next.2.toCome = responder.attended.trim run.2.toCome ∧
          next.2.world.withoutInput = run.2.world.withoutInput ∧
          responder.attended.next? capacity next.2.staged.toList = none := by
  have agrees := polls_agreesWith responder times wellFormed
  refine ⟨agrees, ?_⟩
  have polled := poll_polled responder agrees.wellFormed
  intro next isStarved
  generalize equal : responder.attended.poll (responder.attended.polls times link).2 =
    polledNext at polled
  have isNext : next = polledNext := equal
  rw [isNext] at isStarved ⊢
  cases polled with
  | answered _ notStarved =>
      rw [notStarved] at isStarved
      cases isStarved
  | starved _ onlyReads nothing left _ world => exact ⟨onlyReads, left, world, nothing⟩

/-- A packet of which the first three bytes are staged around the end of the ring. A
failing read and one without bytes come before the delimiter. -/
def scattered : Link 8 (Bench Unit) where
  staged := { cells := #v[0x04, 0, 0, 0, 0, 0, 0x02, 0x31], start := 6, size := 3 }
  world :=
    { Bench.plain with
      line :=
        { Bench.plain.line with
          deliveries := [.bytes [0x01, 0x41, 0x0B], .failure, .bytes [], .bytes [0x00]]
          readLimit := some 2
          endless := true } }

theorem scattered_polls_refine :
    scattered.staged.WellFormed ∧
      AgreesWith ofOnePacket (ofOnePacket.attended.polls 4 scattered)
        (ofOnePacket.attended.plainPolls 8 1 [0x02, 0x31, 0x04, 0x01, 0x41, 0x0B, 0x00]
          scattered.world) := by
  have wellFormed : scattered.staged.WellFormed := ⟨by decide, by decide⟩
  have served : (servedPolls (ofOnePacket.attended.polls 4 scattered).1).length =
    1 := by decide +kernel
  have agrees := (polls_refine_plain_list ofOnePacket wellFormed 4).1
  rw [served] at agrees
  exact ⟨wellFormed, agrees⟩

end Responder

end TriggerBench
