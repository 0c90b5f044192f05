import TriggerBench.Proofs.Answering
import TriggerBench.Proofs.CheckedServing

/-! # Headway

A line delivers a finite list of portions and failures. Each turn of receiving uses up a
stray delimiter or reads, and each frame that is served uses up some bytes to come for
good, or a delivery that brings none. So the service loop comes to a read that finds
nothing left, and never goes round on the same staged bytes.
-/

namespace TriggerBench

namespace Simulation

/-! ## Reads of a line -/

namespace Line

def idle (line : Line) : Nat :=
  (line.deliveries.filter fun delivery => delivery.data.isEmpty).length

inductive ReadCase (line : Line) : LineRead × Line → Prop
  | delivered {bytes after} (nonempty : bytes ≠ []) (sameIdle : after.idle = line.idle) :
      ReadCase line (.delivered bytes, after)
  | idled {outcome after} (comesBack : outcome ≠ .waiting)
      (kept : after.pending = line.pending) (fewer : after.idle + 1 = line.idle) :
      ReadCase line (outcome, after)
  | emptied {outcome after} (nothingLeft : line.deliveries = [])
      (unchanged : after = line) :
      ReadCase line (outcome, after)

/-- Each byte to come and each delivery without bytes is supplied for. -/
theorem pending_idle_le_supply (line : Line) :
    line.pending.length + line.idle ≤ line.supply := by
  rw [pending, idle, supply]
  induction line.deliveries with
  | nil => exact Nat.le_refl _
  | cons delivery rest induction =>
      have weighs : delivery.data.length + (if delivery.data.isEmpty then 1 else 0) ≤
          delivery.weight := by
        cases delivery with
        | failure => exact Nat.le_refl _
        | bytes data =>
            apply Nat.add_le_add_left
            split <;> omega
      have counted : ((delivery :: rest).filter fun delivery =>
          delivery.data.isEmpty).length =
          (if delivery.data.isEmpty then 1 else 0) + (rest.filter fun delivery =>
            delivery.data.isEmpty).length := by
        rw [List.filter_cons]
        split
        · rw [List.length_cons, Nat.add_comm]
        · rw [Nat.zero_add]
      rw [List.flatMap_cons, List.length_append, counted, List.foldr_cons]
      omega

private theorem readCase {line : Line} (flows : line.Flows) {wanted : Nat}
    (positive : 0 < wanted) :
    ReadCase line (line.read wanted) := by
  have portion := flows.portion_pos positive
  rw [read]
  cases deliveries : line.deliveries with
  | nil => exact .emptied deliveries rfl
  | cons delivery rest =>
      cases delivery with
      | failure =>
          refine .idled (by simp) ?_ ?_
          · simp [pending, deliveries, Delivery.data]
          · simp [idle, deliveries, Delivery.data]
      | bytes data =>
          simp only
          generalize min wanted (line.readLimit.getD wanted) = count at portion
          cases data with
          | nil =>
              refine .idled (by simp) ?_ ?_
              · simp [pending, deliveries, Delivery.data]
              · simp [idle, deliveries, Delivery.data]
          | cons byte more =>
              have taken : (byte :: more).take count ≠ [] := by
                simp only [ne_eq, List.take_eq_nil_iff, List.cons_ne_nil, or_false]
                omega
              apply ReadCase.delivered taken
              split
              case isTrue => simp [idle, deliveries, Delivery.data]
              case isFalse left =>
                  have isLeft : ((byte :: more).drop count).isEmpty = false := by
                    simpa using left
                  simp [idle, deliveries, Delivery.data, isLeft]

end Line

namespace Bench

variable {Memory : Type}

private theorem port_read_delivered {wanted : Nat} {before after : Bench Memory}
    {bytes : List UInt8} (read : port.read wanted before = .ok (some bytes) after) :
    before.line.read wanted = (.delivered bytes, after.line) ∧
      after.log = before.log ++ [.read wanted (some bytes.length)] := by
  simp only [port, readLine] at read
  rcases ofLine : before.line.read wanted with ⟨known | _ | _, line⟩
  all_goals
    simp only [ofLine, EStateM.Result.ok.injEq, Option.some.injEq, reduceCtorEq,
      false_and] at read
  rcases read with ⟨rfl, rfl⟩
  exact ⟨rfl, rfl⟩

/-- A read that delivers some bytes does not use up a delivery that brings none. -/
theorem port_read_sameIdle {wanted : Nat} {before after : Bench Memory}
    {bytes : List UInt8} (flows : before.line.Flows)
    (read : port.read wanted before = .ok (some bytes) after) (nonempty : bytes ≠ []) :
    after.line.idle = before.line.idle := by
  rcases port_streams.delivered read with ⟨countLe, split, _, _⟩
  have asksForBytes : 0 < wanted :=
    Nat.lt_of_lt_of_le (List.length_pos_iff.mpr nonempty) countLe
  have readCase := Line.readCase flows asksForBytes
  rw [(port_read_delivered read).1] at readCase
  cases readCase with
  | delivered _ sameIdle => exact sameIdle
  | idled _ kept _ =>
      have samePending : after.line.pending = bytes ++ after.line.pending :=
        kept.trans split
      exact absurd (List.self_eq_append_left.mp samePending) nonempty
  | emptied _ unchanged => rw [unchanged]

private theorem port_read_stopped {wanted : Nat} {before after : Bench Memory}
    {stop : Stop} (read : port.read wanted before = .error stop after) :
    (before.line.read wanted).1 = .waiting := by
  simp only [port, readLine] at read
  rcases ofLine : before.line.read wanted with ⟨_ | _ | _, line⟩
  all_goals
    simp only [ofLine, reduceCtorEq] at read
  rfl

private theorem port_starves_readFrom {wanted : Nat} {before after : Bench Memory}
    {reason : Interruption} (starves : port.Starves wanted before reason after) :
    ReadFrom before after := by
  cases starves with
  | ended read => exact (port_streams.delivered read).2.2.2
  | failed read => exact (port_streams.failed read).2
  | stopped read => exact (port_streams.stopped read).2

end Bench

end Simulation

open Simulation

variable {Memory : Type} {capacity : Nat}

def Link.remaining (link : Link capacity (Bench Memory)) : Nat :=
  link.toCome.length + link.world.line.idle

namespace Responder

variable {responder : Responder (Bench Memory)} {link last : Link capacity (Bench Memory)}
  {skipped reads : Nat}

/-! ## One turn -/

inductive Step (link : Link capacity (Bench Memory)) :
    EStateM.Result Interruption (Link capacity (Bench Memory)) (Option Received) → Prop
  | skipped {after} (wellFormed : after.staged.WellFormed)
      (sameWorld : after.world = link.world) (split : link.toCome = 0 :: after.toCome) :
      Step link (.ok none after)
  | read {after event} (wellFormed : after.staged.WellFormed)
      (readFrom : Bench.ReadFrom link.world after.world) (isRead : event.isRead = true)
      (logged : after.world.log = link.world.log ++ [event])
      (kept : after.toCome = link.toCome)
      (sameIdle : after.world.line.idle = link.world.line.idle) :
      Step link (.ok none after)
  | handedOn {received after used} (wellFormed : after.staged.WellFormed)
      (sameWorld : after.world = link.world) (nonempty : used ≠ [])
      (split : link.toCome = used ++ after.toCome) : Step link (.ok (some received) after)
  | idled {reason after} (wellFormed : after.staged.WellFormed)
      (readFrom : Bench.ReadFrom link.world after.world)
      (comesBack : ∀ stop, reason ≠ .stopped stop) (kept : after.toCome = link.toCome)
      (fewer : after.world.line.idle + 1 = link.world.line.idle) :
      Step link (.error reason after)
  | emptied {reason after} (wellFormed : after.staged.WellFormed)
      (readFrom : Bench.ReadFrom link.world after.world)
      (nothingLeft : link.world.line.deliveries = [])
      (sameLine : after.world.line = link.world.line)
      (sameStaged : after.staged = link.staged) : Step link (.error reason after)

private theorem step_of_unit {examined : Examined}
    (found : responder.examine link.staged.toList = some examined)
    {staged : StagingBuffer capacity} (stillWellFormed : staged.WellFormed)
    (left : staged.toList = link.staged.toList.drop examined.released) :
    Step link (.ok examined.verdict.received? { link with staged }) := by
  have bounds := examine_released found
  have split : link.toCome = link.staged.toList.take examined.released ++
      (staged.toList ++ link.world.line.pending) := by
    rw [left, ← List.append_assoc, List.take_append_drop]
    rfl
  cases handedOn : examined.verdict.received? with
  | some received =>
      refine .handedOn stillWellFormed rfl ?_ split
      intro isEmpty
      have length := congrArg List.length isEmpty
      rw [List.length_take, List.length_nil] at length
      omega
  | none =>
      rcases examine_skipped found ((Verdict.received?_eq_none_iff _).mp handedOn) with
        ⟨_, single, rest, isZero⟩
      refine .skipped stillWellFormed rfl ?_
      rw [split, single, isZero]
      rfl

private theorem step_of_full (positive : 0 < capacity)
    (wellFormed : link.staged.WellFormed) (full : link.staged.size = capacity) :
    Step link (.ok (some (.dropped .overflow)) { link with
      staged := link.staged.discard }) := by
  have someStaged : link.staged.toList ≠ [] := by
    rw [← List.length_pos_iff, wellFormed.length_toList, full]
    exact positive
  refine .handedOn (StagingBuffer.wellFormed_discard _) rfl someStaged ?_
  simp [Link.toCome, Link.stream]

private theorem step_of_read (flows : link.world.line.Flows) {wanted : Nat}
    {bytes : List UInt8} {staged : StagingBuffer capacity} {world : Bench Memory}
    (read : Bench.port.read wanted link.world = .ok (some bytes) world)
    (nonempty : 0 < bytes.length) (wellFormed : staged.WellFormed)
    (joined : staged.toList = link.staged.toList ++ bytes) :
    Step link (.ok none { staged, world }) := by
  rcases Bench.port_streams.delivered read with ⟨_, split, _, readFrom⟩
  have sameIdle := Bench.port_read_sameIdle flows read (List.length_pos_iff.mp nonempty)
  refine .read wellFormed readFrom rfl (Bench.port_read_delivered read).2 ?_ sameIdle
  simp only [Link.toCome, Link.stream, joined, split, List.append_assoc]

private theorem step_of_starved (wellFormed : link.staged.WellFormed)
    (flows : link.world.line.Flows) {wanted : Nat} (asksForBytes : 0 < wanted)
    {reason : Interruption} {world : Bench Memory}
    (starves : Bench.port.Starves wanted link.world reason world) :
    Step link (.error reason { link with world }) := by
  rcases Bench.port_starves starves with ⟨isLine, noBytes⟩
  have readFrom := Bench.port_starves_readFrom starves
  have readCase := Line.readCase flows asksForBytes
  generalize ofLine : link.world.line.read wanted = result at readCase isLine noBytes
  cases readCase with
  | delivered nonempty _ => exact absurd (noBytes _ rfl) nonempty
  | @idled outcome after comesBack kept fewer =>
      change world.line = after at isLine
      rw [← isLine] at kept fewer
      refine .idled wellFormed readFrom ?_ ?_ fewer
      · rintro stop rfl
        cases starves with
        | stopped read =>
            have waits := Bench.port_read_stopped read
            rw [ofLine] at waits
            exact comesBack waits
      · simp only [Link.toCome, Link.stream, kept]
  | emptied nothingLeft unchanged =>
      exact .emptied wellFormed readFrom nothingLeft (isLine.trans unchanged) rfl

private theorem turn_step (responder : Responder (Bench Memory)) (positive : 0 < capacity)
    (wellFormed : link.staged.WellFormed) (flows : link.world.line.Flows) :
    Step link (responder.turn Bench.port link) := by
  have turned : Turned responder Bench.port link (responder.turn Bench.port link) :=
    turned Bench.port_streams.gathers.honest wellFormed
  generalize responder.turn Bench.port link = result at turned
  cases turned with
  | unit found stillWellFormed _ left => exact step_of_unit found stillWellFormed left
  | overflow _ full => exact step_of_full positive wellFormed full
  | refilled read nonempty stillWellFormed _ joined =>
      exact step_of_read flows read nonempty stillWellFormed joined
  | starved _ _ starves =>
      rcases starves with ⟨wanted, asksForBytes, starves⟩
      exact step_of_starved wellFormed flows asksForBytes starves

/-! ## Turns until something is received -/

/-- The turns that receiving takes before its last one: so many of them use up a stray
delimiter, and so many read. -/
inductive Turns (responder : Responder (Bench Memory))
    (link : Link capacity (Bench Memory)) :
    (skipped reads : Nat) → (last : Link capacity (Bench Memory)) → Prop
  | nothing : Turns responder link 0 0 link
  | skipped {middle after skipped reads}
      (before : Turns responder link skipped reads middle)
      (turned : responder.turn Bench.port middle = .ok none after)
      (sameWorld : after.world = middle.world)
      (split : middle.toCome = 0 :: after.toCome) :
      Turns responder link (skipped + 1) reads after
  | read {middle after event skipped reads}
      (before : Turns responder link skipped reads middle)
      (turned : responder.turn Bench.port middle = .ok none after)
      (isRead : event.isRead = true)
      (logged : after.world.log = middle.world.log ++ [event]) :
      Turns responder link skipped (reads + 1) after

def FindsEmpty (responder : Responder (Bench Memory))
    (link : Link capacity (Bench Memory)) : Prop :=
  ∃ skipped reads last, Turns responder link skipped reads last ∧
    last.world.line.deliveries = [] ∧
    ∃ reason after, responder.turn Bench.port last = .error reason after

structure Left (link : Link capacity (Bench Memory)) (skipped reads : Nat)
    (last : Link capacity (Bench Memory)) : Prop where
  wellFormed : last.staged.WellFormed
  readFrom : Bench.ReadFrom link.world last.world
  logged : ∃ events, last.world.log = link.world.log ++ events ∧
    (∀ event ∈ events, event.isRead) ∧ events.length = reads
  split : link.toCome = List.replicate skipped 0 ++ last.toCome
  sameIdle : last.world.line.idle = link.world.line.idle

theorem Left.flows (left : Left link skipped reads last) (flows : link.world.line.Flows) :
    last.world.line.Flows := by
  rcases left.readFrom with ⟨_, _, _, isLast⟩
  rw [isLast]
  exact flows

theorem Turns.left (turns : Turns responder link skipped reads last)
    (positive : 0 < capacity) (wellFormed : link.staged.WellFormed)
    (flows : link.world.line.Flows) : Left link skipped reads last := by
  induction turns with
  | nothing =>
      exact ⟨wellFormed, Bench.port_streams.refl _, ⟨[], by simp, by simp, rfl⟩, rfl, rfl⟩
  | @skipped middle after skipped reads _ turned sameWorld split induction =>
      have step :=
        turn_step responder positive induction.wellFormed (induction.flows flows)
      rw [turned] at step
      have stillWellFormed : after.staged.WellFormed := by
        cases step with
        | skipped wellFormed _ _ => exact wellFormed
        | read wellFormed _ _ _ _ _ => exact wellFormed
      refine ⟨stillWellFormed, ?_, ?_, ?_, ?_⟩
      · rw [sameWorld]
        exact induction.readFrom
      · rw [sameWorld]
        exact induction.logged
      · rw [induction.split, split, List.replicate_succ', List.append_assoc,
          List.singleton_append]
      · rw [sameWorld]
        exact induction.sameIdle
  | @read middle after event skipped reads _ turned isRead logged induction =>
      have step :=
        turn_step responder positive induction.wellFormed (induction.flows flows)
      rw [turned] at step
      cases step with
      | skipped _ sameWorld _ =>
          rw [sameWorld] at logged
          simp at logged
      | read stillWellFormed readFrom _ _ kept sameIdle =>
          rcases induction.logged with ⟨events, loggedBefore, areReads, count⟩
          refine ⟨stillWellFormed,
            Bench.port_streams.trans induction.readFrom readFrom, ?_, ?_, ?_⟩
          · refine ⟨events ++ [event], ?_, ?_, ?_⟩
            · rw [logged, loggedBefore, List.append_assoc]
            · exact List.forall_mem_append.mpr ⟨areReads, by simpa using isRead⟩
            · rw [List.length_append, count, List.length_singleton]
          · rw [induction.split, kept]
          · rw [sameIdle, induction.sameIdle]

/-- The turns that are granted beyond those before the last one are granted to the link
that they leave. -/
theorem Turns.receiveWithin (before : Turns responder link skipped reads last)
    (turns : Nat) :
    responder.receiveWithin Bench.port (skipped + reads + turns) link =
      responder.receiveWithin Bench.port turns last := by
  induction before generalizing turns with
  | nothing => rw [Nat.add_zero, Nat.zero_add]
  | @skipped middle after skipped reads _ turned _ _ induction =>
      have regrouped : skipped + 1 + reads + turns =
        skipped + reads + (turns + 1) := by omega
      rw [regrouped, induction, Responder.receiveWithin, bind_of_ok turned]
  | @read middle after event skipped reads _ turned _ _ induction =>
      have regrouped : skipped + (reads + 1) + turns =
        skipped + reads + (turns + 1) := by omega
      rw [regrouped, induction, Responder.receiveWithin, bind_of_ok turned]

/-- Receiving on a bench never runs out of turns. -/
theorem receive_ne_outOfTurns (responder : Responder (Bench Memory))
    (wellFormed : link.staged.WellFormed) (after : Link capacity (Bench Memory)) :
    responder.receive Bench.port link ≠ .error (.stopped .outOfTurns) after := by
  intro ran
  have reception := responder.receive_onBench wellFormed
  rw [ran] at reception
  cases reception with
  | starved _ _ _ _ starves =>
      rcases starves with ⟨wanted, before, _, _, starves⟩
      cases starves with
      | stopped read => cases Bench.port_read_error read

/-- What receiving comes to by its last turn, for which any more turns are granted in
vain. -/
inductive Concluded (responder : Responder (Bench Memory))
    (link : Link capacity (Bench Memory)) :
    EStateM.Result Interruption (Link capacity (Bench Memory)) Received → Prop
  | received {skipped reads last received after}
      (turns : Turns responder link skipped reads last)
      (turned : responder.turn Bench.port last = .ok (some received) after)
      (inTime : ∀ more, responder.receiveWithin Bench.port (skipped + reads + (more + 1))
        link = .ok received after) :
      Concluded responder link (.ok received after)
  | interrupted {skipped reads last reason after}
      (turns : Turns responder link skipped reads last)
      (turned : responder.turn Bench.port last = .error reason after)
      (inTime : ∀ more, responder.receiveWithin Bench.port (skipped + reads + (more + 1))
        link = .error reason after) :
      Concluded responder link (.error reason after)

private theorem receive_concluded (responder : Responder (Bench Memory))
    (positive : 0 < capacity) (wellFormed : link.staged.WellFormed)
    (flows : link.world.line.Flows) :
    Concluded responder link (responder.receive Bench.port link) := by
  have kept : ∀ {before after : Link capacity (Bench Memory)},
      (∃ skipped reads, Turns responder link skipped reads before) →
        responder.turn Bench.port before = .ok none after →
          ∃ skipped reads, Turns responder link skipped reads after := by
    rintro before after ⟨skipped, reads, turns⟩ turned
    have left := turns.left positive wellFormed flows
    have step := turn_step responder positive left.wellFormed (left.flows flows)
    rw [turned] at step
    cases step with
    | skipped _ sameWorld split => exact ⟨_, _, .skipped turns turned sameWorld split⟩
    | read _ _ isRead logged _ _ => exact ⟨_, _, .read turns turned isRead logged⟩
  have ended : Ended responder Bench.port (fun last => ∃ skipped reads,
      Turns responder link skipped reads last) (responder.receive Bench.port link) := by
    rw [receive, get_bind]
    exact receiveWithin_ended kept _ ⟨0, 0, .nothing⟩
  have inBudget := receive_ne_outOfTurns responder wellFormed
  generalize responder.receive Bench.port link = result at ended inBudget
  cases ended with
  | received holds turned =>
      rcases holds with ⟨skipped, reads, turns⟩
      refine .received turns turned ?_
      intro more
      rw [turns.receiveWithin, receiveWithin, bind_of_ok turned]
      rfl
  | interrupted holds turned =>
      rcases holds with ⟨skipped, reads, turns⟩
      refine .interrupted turns turned ?_
      intro more
      rw [turns.receiveWithin, receiveWithin, bind_of_error turned]
  | outOfTurns => exact absurd rfl (inBudget _)

/-! ## One frame -/

structure Advances (responder : Responder (Bench Memory))
    (link after : Link capacity (Bench Memory)) (skipped : Nat) (used : List UInt8)
    (events : List Event) : Prop where
  logged : after.world.log = link.world.log ++ events
  /-- There is a turn for each delimiter that is skipped, one for each read, and a last
  one. -/
  inTime :
    responder.receiveWithin Bench.port (skipped + (events.filter Event.isRead).length + 1)
    link = responder.receive Bench.port link
  inBudget : ∀ stuck, responder.receive Bench.port link ≠
    .error (.stopped .outOfTurns) stuck
  split : link.toCome = List.replicate skipped 0 ++ used ++ after.toCome
  /-- Bytes are used up, or a delivery that brings none is. -/
  progress : ¬responder.FindsEmpty link →
    (used ≠ [] ∧ after.world.line.idle = link.world.line.idle) ∨
      (used = [] ∧ after.world.line.idle + 1 = link.world.line.idle)

structure Serviceable (link after : Link capacity (Bench Memory)) : Prop where
  wellFormed : after.staged.WellFormed
  flows : after.world.line.Flows
  endless : after.world.line.endless = link.world.line.endless
  acceptance : after.world.line.acceptance = link.world.line.acceptance

private theorem ofResult_after {State : Type} (bench : State → Bench Memory)
    (result : EStateM.Result Interruption State Outcome) :
    (Poll.ofResult bench result).2 = Ran.after result := by
  cases result <;> rfl

private theorem lift_after (activity : Activity (Bench Memory) Outcome)
    (link : Link capacity (Bench Memory)) :
    Ran.after (Link.worldComponent.lift activity link) =
      { link with world := Ran.after (activity link.world) } := by
  simp only [Component.lift, Link.worldComponent]
  cases activity link.world <;> rfl

private theorem answer_logged {responder : Responder (Bench Memory)}
    (attends : responder.Attends) (received : Received) (bench : Bench Memory) :
    ∃ events, (Ran.after (responder.answer Bench.port received bench)).log =
        bench.log ++ events ∧ events.filter Event.isRead = [] := by
  have answered := answer_answered attends received bench
  generalize responder.answer Bench.port received bench = result at answered
  cases answered with
  | @completed outcome events after noReads logged =>
      exact ⟨events, logged, by simpa [List.filter_eq_nil_iff] using noReads⟩
  | @failed reason events after noReads logged =>
      exact ⟨events, logged, by simpa [List.filter_eq_nil_iff] using noReads⟩

private theorem Serviceable.ofReadFrom {after : Link capacity (Bench Memory)}
    (wellFormed : after.staged.WellFormed) (flows : link.world.line.Flows)
    (readFrom : Bench.ReadFrom link.world after.world) : Serviceable link after := by
  rcases readFrom with ⟨_, _, _, isAfter⟩
  refine ⟨wellFormed, ?_, ?_, ?_⟩
  · rw [isAfter]
    exact flows
  · rw [isAfter]
    rfl
  · rw [isAfter]
    rfl

theorem Serviceable.answered {middle : Link capacity (Bench Memory)}
    (serviceable : Serviceable link middle) (attends : responder.Attends)
    (received : Received) :
    Serviceable link { middle with
      world := Ran.after (responder.answer Bench.port received middle.world) } := by
  rcases answer_counts attends received middle.world with
    ⟨writes, accepted, calls, isLine⟩
  rw [ofResult_after] at isLine
  refine ⟨serviceable.wellFormed, ?_, ?_, ?_⟩
  · rw [isLine]
    exact serviceable.flows
  · rw [isLine]
    exact serviceable.endless
  · rw [isLine]
    exact serviceable.acceptance

/-- A last turn that is interrupted has come upon a delivery without bytes, or finds
nothing left. -/
theorem Turns.interrupted (turns : Turns responder link skipped reads last)
    (positive : 0 < capacity) (wellFormed : link.staged.WellFormed)
    (flows : link.world.line.Flows) {reason : Interruption}
    {after : Link capacity (Bench Memory)}
    (turned : responder.turn Bench.port last = .error reason after) :
    after.staged.WellFormed ∧ Bench.ReadFrom last.world after.world ∧
      after.toCome = last.toCome ∧
      (responder.FindsEmpty link ∨
        (after.world.line.idle + 1 = link.world.line.idle ∧
          ∀ stop, reason ≠ .stopped stop)) := by
  have left := turns.left positive wellFormed flows
  have step := turn_step responder positive left.wellFormed (left.flows flows)
  rw [turned] at step
  cases step with
  | idled stillWellFormed readFrom comesBack kept fewer =>
      rw [left.sameIdle] at fewer
      exact ⟨stillWellFormed, readFrom, kept, .inr ⟨fewer, comesBack⟩⟩
  | emptied stillWellFormed readFrom nothingLeft sameLine sameStaged =>
      refine ⟨stillWellFormed, readFrom, ?_,
        .inl ⟨_, _, last, turns, nothingLeft, reason, after, turned⟩⟩
      simp only [Link.toCome, Link.stream, sameStaged, sameLine]

/-- A poll that receives something uses up some bytes. -/
theorem Turns.received_advances (turns : Turns responder link skipped reads last)
    (attends : responder.Attends) (positive : 0 < capacity)
    (wellFormed : link.staged.WellFormed) (flows : link.world.line.Flows)
    {received : Received} {middle : Link capacity (Bench Memory)}
    (turned : responder.turn Bench.port last = .ok (some received) middle)
    (inTime : ∀ more, responder.receiveWithin Bench.port (skipped + reads + (more + 1))
      link = .ok received middle)
    (ran : responder.receive Bench.port link = .ok received middle) :
    let after := Ran.after (responder.serveOne Bench.port link)
    (∃ used events, Advances responder link after skipped used events) ∧
      Serviceable link after := by
  have left := turns.left positive wellFormed flows
  rcases left.logged with ⟨readEvents, loggedReads, areReads, count⟩
  have step := turn_step responder positive left.wellFormed (left.flows flows)
  rw [turned] at step
  cases step with
  | @handedOn _ _ used stillWellFormed sameWorld nonempty split =>
      have readFrom : Bench.ReadFrom link.world middle.world := by
        rw [sameWorld]
        exact left.readFrom
      rcases answer_logged attends received middle.world with
        ⟨answerEvents, loggedAnswer, noReads⟩
      rcases answer_counts attends received middle.world with
        ⟨writes, accepted, calls, isLine⟩
      have sameToCome := toCome_answered attends received middle
      rw [ofResult_after] at isLine sameToCome
      have serviceable := Serviceable.ofReadFrom stillWellFormed flows readFrom
      rw [serveOne, bind_of_ok ran, lift_after]
      refine ⟨⟨used, readEvents ++ answerEvents, ?_⟩,
        serviceable.answered attends received⟩
      constructor
      · rw [loggedAnswer, sameWorld, loggedReads, List.append_assoc]
      · rw [List.filter_append, noReads, List.append_nil,
          List.filter_eq_self.mpr areReads, count, ran]
        exact inTime 0
      · exact receive_ne_outOfTurns responder wellFormed
      · rw [sameToCome, left.split, split, List.append_assoc]
      · intro _
        apply Or.inl
        constructor
        · exact nonempty
        · rw [isLine, ← left.sameIdle, ← sameWorld]
          rfl

/-- A poll that receives nothing uses up a delivery without bytes, unless it finds nothing
left. -/
theorem Turns.interrupted_advances (turns : Turns responder link skipped reads last)
    (positive : 0 < capacity) (wellFormed : link.staged.WellFormed)
    (flows : link.world.line.Flows) {reason : Interruption}
    {after : Link capacity (Bench Memory)}
    (turned : responder.turn Bench.port last = .error reason after)
    (inTime : ∀ more, responder.receiveWithin Bench.port (skipped + reads + (more + 1))
      link = .error reason after)
    (ran : responder.receive Bench.port link = .error reason after) :
    (∃ events, Advances responder link after skipped [] events) ∧
      Serviceable link after := by
  have left := turns.left positive wellFormed flows
  rcases left.logged with ⟨readEvents, loggedReads, areReads, count⟩
  rcases turns.interrupted positive wellFormed flows turned with
    ⟨stillWellFormed, readFrom, kept, cause⟩
  have allRead := Bench.port_streams.trans left.readFrom readFrom
  refine ⟨?_, .ofReadFrom stillWellFormed flows allRead⟩
  rcases readFrom with ⟨_, lastEvents, lastAreReads, isAfter⟩
  have allAreReads : ∀ event ∈ readEvents ++ lastEvents, event.isRead :=
    List.forall_mem_append.mpr ⟨areReads, lastAreReads⟩
  refine ⟨readEvents ++ lastEvents, ?_, ?_, ?_, ?_, ?_⟩
  · rw [isAfter, ← List.append_assoc, ← loggedReads]
  · have regrouped : skipped + (reads + lastEvents.length) + 1 =
        skipped + reads + (lastEvents.length + 1) := by
      omega
    rw [List.filter_eq_self.mpr allAreReads, List.length_append, count, ran, regrouped]
    exact inTime lastEvents.length
  · exact receive_ne_outOfTurns responder wellFormed
  · rw [List.append_nil]
    exact left.split.trans (congrArg _ kept.symm)
  · intro notEmpty
    rcases cause with isEmpty | ⟨fewer, _⟩
    · exact absurd isEmpty notEmpty
    · exact .inr ⟨rfl, fewer⟩

private theorem serveOne_advances (attends : responder.Attends) (positive : 0 < capacity)
    (wellFormed : link.staged.WellFormed) (flows : link.world.line.Flows) :
    (∃ skipped used events,
      Advances responder link (Ran.after (responder.serveOne Bench.port link)) skipped
        used events) ∧
        Serviceable link (Ran.after (responder.serveOne Bench.port link)) := by
  have concluded := receive_concluded responder positive wellFormed flows
  generalize ran : responder.receive Bench.port link = result at concluded
  cases concluded with
  | @received skipped _ _ _ _ turns turned inTime =>
      rcases turns.received_advances attends positive wellFormed flows turned inTime
        ran with ⟨⟨used, events, advances⟩, serviceable⟩
      exact ⟨⟨skipped, used, events, advances⟩, serviceable⟩
  | @interrupted skipped _ _ _ _ turns turned inTime =>
      rcases turns.interrupted_advances positive wellFormed flows turned inTime ran with
        ⟨⟨events, advances⟩, serviceable⟩
      rw [serveOne, bind_of_error ran]
      exact ⟨⟨skipped, [], events, advances⟩, serviceable⟩

/-! ## Frame after frame -/

/-- Frames that are served one after the other, failures included. None of the polls finds
nothing left to deliver, and none is stopped. -/
inductive Completes (responder : Responder (Bench Memory)) :
    Link capacity (Bench Memory) → Nat → Link capacity (Bench Memory) → Prop
  | nothing {first} : Completes responder first 0 first
  | poll {first final polls} (notEmpty : ¬responder.FindsEmpty first)
      (goesOn : ∀ stop after,
        responder.serveOne Bench.port first ≠ .error (.stopped stop) after)
      (behind : Completes responder
        (Ran.after (responder.serveOne Bench.port first)) polls final) :
      Completes responder first (polls + 1) final

private theorem Completes.polls_le {polls : Nat}
    (completes : Completes responder link polls last) (attends : responder.Attends)
    (positive : 0 < capacity) (wellFormed : link.staged.WellFormed)
    (flows : link.world.line.Flows) :
    polls + last.remaining ≤ link.remaining ∧ Serviceable link last := by
  induction completes with
  | nothing => exact ⟨Nat.le_of_eq (Nat.zero_add _), wellFormed, flows, rfl, rfl⟩
  | @poll first final polls notEmpty goesOn behind induction =>
      rcases serveOne_advances attends positive wellFormed flows with
        ⟨⟨skipped, used, events, advances⟩, serviceable⟩
      rcases induction serviceable.wellFormed serviceable.flows with
        ⟨pollsLe, lastServiceable⟩
      have length := congrArg List.length advances.split
      rw [List.length_append, List.length_append, List.length_replicate] at length
      refine ⟨?_, lastServiceable.wellFormed, lastServiceable.flows,
        lastServiceable.endless.trans serviceable.endless,
        lastServiceable.acceptance.trans serviceable.acceptance⟩
      simp only [Link.remaining] at pollsLe ⊢
      rcases advances.progress notEmpty with ⟨someUsed, sameIdle⟩ | ⟨_, fewer⟩
      · have usedPositive := List.length_pos_iff.mpr someUsed
        omega
      · omega

/-- The service loop completes so many polls as it may, or comes before to one that finds
nothing left or is stopped. -/
theorem serveWithin_completes (responder : Responder (Bench Memory)) (frames : Nat)
    (link : Link capacity (Bench Memory)) :
    (∃ last, Completes responder link frames last) ∨
      ∃ polls last, Completes responder link polls last ∧
        (responder.FindsEmpty last ∨ ∃ stop after, responder.serveOne Bench.port last =
          .error (.stopped stop) after) ∧
        ∀ stop after, responder.serveOne Bench.port last = .error (.stopped stop) after →
          responder.serveWithin Bench.port frames link = (stop, after) := by
  induction frames generalizing link with
  | zero => exact .inl ⟨link, .nothing⟩
  | succ frames induction =>
      by_cases ends : responder.FindsEmpty link ∨
          ∃ stop after, responder.serveOne Bench.port link = .error (.stopped stop) after
      · refine .inr ⟨0, link, .nothing, ends, ?_⟩
        intro stop after ran
        simp only [serveWithin, ran]
      · rw [not_or] at ends
        rcases ends with ⟨notEmpty, notStopped⟩
        have goesOn : ∀ stop after,
            responder.serveOne Bench.port link ≠ .error (.stopped stop) after :=
          fun stop after ran => notStopped ⟨stop, after, ran⟩
        have next : responder.serveWithin Bench.port (frames + 1) link =
            responder.serveWithin Bench.port frames
              (Ran.after (responder.serveOne Bench.port link)) := by
          cases ran : responder.serveOne Bench.port link with
          | ok outcome after => simp only [serveWithin, ran, Ran.after]
          | error reason after =>
              cases reason with
              | failed error => simp only [serveWithin, ran, Ran.after]
              | stopped stop => exact absurd ran (goesOn stop after)
        rcases induction (Ran.after (responder.serveOne Bench.port link)) with
          ⟨last, completes⟩ | ⟨polls, last, completes, ends, stopsAt⟩
        · exact .inl ⟨last, .poll notEmpty goesOn completes⟩
        · refine .inr ⟨polls + 1, last, .poll notEmpty goesOn completes, ends, ?_⟩
          rw [next]
          exact stopsAt

/-! ## What stops the service loop -/

def HandlerStops (responder : Responder (Bench Memory))
    (link : Link capacity (Bench Memory)) (stop : Stop) : Prop :=
  ∃ frame middle entry name handler memory,
    responder.receive Bench.port link = .ok (.frame frame) middle ∧
    responder.table.find? frame.command = some entry ∧
    entry.handler = Bench.attended name handler ∧
    handler frame.request .empty middle.world.memory = .error stop memory

private theorem answer_stops (attends : responder.Attends) {received : Received}
    {bench after : Bench Memory} {stop : Stop}
    (ran : responder.answer Bench.port received bench = .error (.stopped stop) after) :
    (∃ frame entry name handler memory, received = .frame frame ∧
      responder.table.find? frame.command = some entry ∧
      entry.handler = Bench.attended name handler ∧
        handler frame.request .empty bench.memory = .error stop memory) ∨
      (stop = .fault .stalledWrite ∧ ¬bench.line.Progresses) := by
  have ofSending : ∀ {packets outcome middle},
      responder.settle received bench = .ok (packets, outcome) middle →
      middle.line = bench.line → (∀ packet ∈ packets, packet.IsShort) →
        stop = .fault .stalledWrite ∧ ¬bench.line.Progresses := by
    intro packets outcome middle settled sameLine short
    rw [answer_of_settled settled] at ran
    have transmission := Bench.sendPackets_transmission responder.protocol short middle
    generalize responder.protocol.sendPackets Bench.port packets middle =
      sent at transmission ran
    cases transmission with
    | complete => cases ran
    | cut _ _ cause _ =>
        simp only [afterSending, EStateM.Result.error.injEq] at ran
        rw [ran.1, sameLine] at cause
        cases cause with
        | stalled stalls => exact ⟨rfl, stalls⟩
  by_cases calls : responder.Calls received
  · rcases calls with ⟨frame, entry, rfl, found, fits⟩
    rcases attends entry (List.mem_of_find?_eq_some found) with
      ⟨name, handler, isAttended⟩
    have settled := settle_attended found fits isAttended bench
    cases handled : handler frame.request .empty bench.memory with
    | ok answer memory =>
        simp only [handled] at settled
        exact .inr (ofSending settled rfl (Protocol.acknowledgement_isShort _ answer))
    | error known memory =>
        simp only [handled] at settled
        rw [answer_of_stopped settled] at ran
        cases ran
        exact .inl ⟨frame, entry, name, handler, memory, rfl, found, isAttended, handled⟩
  · rcases settle_of_not_calls calls with ⟨packets, outcome, settles, short⟩
    exact .inr (ofSending (congrFun settles bench) rfl short)

/-- A poll is stopped by its handler, by a write that takes nothing, or by a read that
finds nothing left. -/
theorem serveOne_stops (attends : responder.Attends) (positive : 0 < capacity)
    (wellFormed : link.staged.WellFormed) (flows : link.world.line.Flows) {stop : Stop}
    {after : Link capacity (Bench Memory)}
    (ran : responder.serveOne Bench.port link = .error (.stopped stop) after) :
    responder.FindsEmpty link ∨ responder.HandlerStops link stop ∨
      (stop = .fault .stalledWrite ∧ ¬link.world.line.Progresses) := by
  have concluded := receive_concluded responder positive wellFormed flows
  generalize received : responder.receive Bench.port link = result at concluded
  cases concluded with
  | @received skipped reads last frame middle turns turned inTime =>
      have left := turns.left positive wellFormed flows
      have step := turn_step responder positive left.wellFormed (left.flows flows)
      rw [turned] at step
      cases step with
      | handedOn _ sameWorld _ _ =>
          rw [serveOne, bind_of_ok received] at ran
          rcases error_of_lift ran with ⟨world, answered, _⟩
          rcases answer_stops attends answered with
            ⟨frame, entry, name, handler, memory, rfl, found, isAttended, handled⟩
              | ⟨isStalled, stalls⟩
          · exact .inr (.inl ⟨frame, middle, entry, name, handler, memory, received,
              found, isAttended, handled⟩)
          · rcases left.readFrom with ⟨_, _, _, isLast⟩
            change ¬middle.world.line.Progresses at stalls
            rw [sameWorld, isLast] at stalls
            exact .inr (.inr ⟨isStalled, stalls⟩)
  | @interrupted skipped reads last reason middle turns turned inTime =>
      rw [serveOne, bind_of_error received] at ran
      cases ran
      rcases turns.interrupted positive wellFormed flows turned with
        ⟨_, _, _, isEmpty | ⟨_, comesBack⟩⟩
      · exact .inl isEmpty
      · exact absurd rfl (comesBack stop)

/-! ## Where the service loop comes to -/

private theorem Turns.receive_interrupted
    (turns : Turns responder link skipped reads last) (positive : 0 < capacity)
    (wellFormed : link.staged.WellFormed) (flows : link.world.line.Flows)
    {reason : Interruption} {after : Link capacity (Bench Memory)}
    (turned : responder.turn Bench.port last = .error reason after) :
    responder.receive Bench.port link = .error reason after := by
  have ran (more : Nat) :
      responder.receiveWithin Bench.port (skipped + reads + (more + 1)) link =
      .error reason after := by
    rw [turns.receiveWithin, Responder.receiveWithin, bind_of_error turned]
  have concluded := receive_concluded responder positive wellFormed flows
  generalize responder.receive Bench.port link = result at concluded
  -- Both numbers of turns are enough, and so is their sum.
  have regrouped (others : Nat) :
      others + (skipped + reads + 1) = skipped + reads + (others + 1) := by omega
  cases concluded with
  | @received otherSkipped otherReads _ _ _ _ _ inTime =>
      have known := inTime (skipped + reads)
      rw [regrouped, ran] at known
      cases known
  | @interrupted otherSkipped otherReads _ _ _ _ _ inTime =>
      have known := inTime (skipped + reads)
      rw [regrouped, ran] at known
      exact known.symm

/-- On a line that waits where nothing is left to deliver, a poll that finds nothing left
does not come back. -/
theorem FindsEmpty.waits (findsEmpty : responder.FindsEmpty link)
    (positive : 0 < capacity) (wellFormed : link.staged.WellFormed)
    (flows : link.world.line.Flows) (endless : link.world.line.endless = true) :
    ∃ after, responder.serveOne Bench.port link =
      .error (.stopped .endlessWait) after := by
  rcases findsEmpty with
    ⟨skipped, reads, last, turns, nothingLeft, reason, after, isError⟩
  have left := turns.left positive wellFormed flows
  have stillEndless : last.world.line.endless = true := by
    rcases left.readFrom with ⟨_, _, _, isLast⟩
    rw [isLast]
    exact endless
  have waits (wanted : Nat) :
      Bench.port.read wanted last.world = .error .endlessWait last.world := by
    simp [Bench.port, Bench.readLine, Line.read, nothingLeft, stillEndless]
  have turned : Turned responder Bench.port last _ :=
    turned Bench.port_streams.gathers.honest left.wellFormed
  rw [isError] at turned
  have isWait : reason = .stopped .endlessWait := by
    cases turned with
    | starved _ _ starves =>
        rcases starves with ⟨wanted, _, starves⟩
        cases starves with
        | ended read => cases (waits wanted).symm.trans read
        | failed read => cases (waits wanted).symm.trans read
        | stopped read =>
            cases (waits wanted).symm.trans read
            rfl
  rw [isWait] at isError
  refine ⟨after, ?_⟩
  rw [serveOne,
    bind_of_error (turns.receive_interrupted positive wellFormed flows isError)]

/-- The service loop comes to a poll that finds nothing left, or is stopped by a handler
or by a write that takes nothing. -/
structure ComesTo (responder : Responder (Bench Memory))
    (link last : Link capacity (Bench Memory)) (polls : Nat) : Prop where
  completes : Completes responder link polls last
  ends : responder.FindsEmpty last ∨ ∃ stop after, responder.serveOne Bench.port last =
      .error (.stopped stop) after ∧
    (responder.HandlerStops last stop ∨
      (stop = .fault .stalledWrite ∧ ¬link.world.line.Progresses))
  stops : ∀ stop after, responder.serveOne Bench.port last =
      .error (.stopped stop) after → responder.serve Bench.port link = (stop, after)
  waits : link.world.line.endless = true →
    ∃ stop after, responder.serveOne Bench.port last = .error (.stopped stop) after

private theorem serve_comesTo (attends : responder.Attends) (positive : 0 < capacity)
    (wellFormed : link.staged.WellFormed) (flows : link.world.line.Flows) :
    ∃ polls last, ComesTo responder link last polls := by
  rcases serveWithin_completes responder
    (link.staged.size + Bench.port.supply link.world + 1) link with ⟨last, completes⟩
    | ⟨polls, last, completes, ends, stops⟩
  · -- More polls than there are bytes and deliveries to use up cannot be completed.
    have pollsLe := (completes.polls_le attends positive wellFormed flows).1
    have supplied := Line.pending_idle_le_supply link.world.line
    have isSupply : Bench.port.supply link.world = link.world.line.supply := rfl
    have length := wellFormed.length_toList
    simp only [Link.remaining, Link.toCome, Link.stream, List.length_append] at pollsLe
    omega
  · have serviceable := (completes.polls_le attends positive wellFormed flows).2
    refine ⟨polls, last, completes, ?_, stops, ?_⟩
    · rcases ends with findsEmpty | ⟨stop, after, ran⟩
      · exact .inl findsEmpty
      · rcases serveOne_stops attends positive serviceable.wellFormed serviceable.flows
          ran with findsEmpty | handlerStops | ⟨isStalled, stalls⟩
        · exact .inl findsEmpty
        · exact .inr ⟨stop, after, ran, .inl handlerStops⟩
        · rw [Line.Progresses, serviceable.acceptance] at stalls
          exact .inr ⟨stop, after, ran, .inr ⟨isStalled, stalls⟩⟩
    · intro endless
      rcases ends with findsEmpty | stopped
      · rw [← serviceable.endless] at endless
        rcases findsEmpty.waits positive serviceable.wellFormed serviceable.flows
          endless with ⟨after, ran⟩
        exact ⟨.endlessWait, after, ran⟩
      · exact stopped

/-- Each poll takes a turn for each delimiter that it skips, one for each read, and one
more. Unless it finds nothing left, it uses up some bytes or a delivery that brings none,
and so the service loop completes no more polls than there are of these, whatever becomes
of the answers. -/
theorem serving_makes_headway (attends : responder.Attends) (positive : 0 < capacity)
    (wellFormed : link.staged.WellFormed) (flows : link.world.line.Flows) :
    (∃ skipped used events,
      Advances responder link (Ran.after (responder.serveOne Bench.port link)) skipped
        used events) ∧
      (∀ polls last, Completes responder link polls last →
        polls + last.remaining ≤ link.remaining) ∧
      ∃ polls last, ComesTo responder link last polls := by
  refine ⟨(serveOne_advances attends positive wellFormed flows).1, ?_,
    serve_comesTo attends positive wellFormed flows⟩
  intro polls last completes
  exact (completes.polls_le attends positive wellFormed flows).1

/-- A link with stray delimiters, a failure, an empty delivery and a frame that is
rejected, on a line that fails to send and waits at its end. -/
def straying : Link 8 (Bench Unit) where
  staged := (StagingBuffer.empty.stage [0x00]).1
  world :=
    { Bench.plain with
      line :=
        { Bench.plain.line with
          deliveries :=
            [.bytes [0x00, 0x00], .failure, .bytes [], .bytes [0x02, 0x31, 0x00, 0x07]]
          endless := true
          acceptance := .limited none (some 2) } }

theorem straying_makes_headway :
    let responder := ofOnePacket.attended
    responder.Attends ∧ 0 < 8 ∧ straying.staged.WellFormed ∧ straying.world.line.Flows ∧
      straying.remaining = 9 ∧
      (∃ skipped used events,
        Advances responder straying (Ran.after (responder.serveOne Bench.port straying))
          skipped used events) ∧
      (∀ polls last, Completes responder straying polls last →
        polls + last.remaining ≤ 9) ∧
      (responder.serve Bench.port straying).1 = .endlessWait := by
  intro responder
  have attends : responder.Attends := attended_attends ofOnePacket
  have positive : 0 < 8 := by decide
  have wellFormed : straying.staged.WellFormed := ⟨by decide, by decide⟩
  have flows : straying.world.line.Flows := by simp [Line.Flows, straying, Bench.plain]
  have headway := serving_makes_headway attends positive wellFormed flows
  have remaining : straying.remaining = 9 := by decide +kernel
  have stops : (responder.serve Bench.port straying).1 = .endlessWait := by decide +kernel
  refine ⟨attends, positive, wellFormed, flows, remaining, headway.1, ?_, stops⟩
  rw [← remaining]
  exact headway.2.1

end Responder

end TriggerBench
