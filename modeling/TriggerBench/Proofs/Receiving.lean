import TriggerBench.Proofs.PlainStream

/-! # Receiving through the ring

One turn of receiving uses up a unit, gives up a full ring, or reads. Each turn keeps the
list of bytes to come, up to stray delimiters at its start, and lowers the turn budget, so
that receiving ends with what comes next in that list.
-/

namespace TriggerBench

variable {capacity : Nat} {World : Type}

def Port.Honest (port : Port World) : Prop :=
  ∀ {wanted world bytes after}, port.read wanted world = .ok (some bytes) after →
    bytes.length ≤ wanted

/-- What the reads of a port have to do with a stream: they deliver its bytes in order and
in portions, never more than were asked for. Whatever else they change in the world is an
`Aside`. -/
structure Port.Streams (port : Port World) (pending : World → List UInt8)
    (Aside : World → World → Prop) : Prop where
  refl : ∀ world, Aside world world
  trans : ∀ {first second third}, Aside first second → Aside second third →
    Aside first third
  delivered : ∀ {wanted world bytes after},
    port.read wanted world = .ok (some bytes) after →
    bytes.length ≤ wanted ∧ pending world = bytes ++ pending after ∧
      bytes.length + port.supply after ≤ port.supply world ∧ Aside world after
  failed : ∀ {wanted world after}, port.read wanted world = .ok none after →
    pending after = pending world ∧ Aside world after
  stopped : ∀ {wanted world stop after}, port.read wanted world = .error stop after →
    pending after = pending world ∧ Aside world after

/-- What the reads of a port leave behind, told by a relation between the world before,
the bytes that were delivered, and the world after. A read delivers no more than it was
asked for, and uses up the supply of what it delivers. -/
structure Port.Gathers (port : Port World)
    (Delivers : World → List UInt8 → World → Prop) : Prop where
  nothing : ∀ world, Delivers world [] world
  append : ∀ {first bytes second more third}, Delivers first bytes second →
    Delivers second more third → Delivers first (bytes ++ more) third
  delivered : ∀ {wanted world bytes after},
    port.read wanted world = .ok (some bytes) after →
    bytes.length ≤ wanted ∧ bytes.length + port.supply after ≤ port.supply world ∧
    Delivers world bytes after
  failed : ∀ {wanted world after}, port.read wanted world = .ok none after →
    Delivers world [] after
  stopped : ∀ {wanted world stop after}, port.read wanted world = .error stop after →
    Delivers world [] after

theorem Port.Gathers.honest {port : Port World}
    {Delivers : World → List UInt8 → World → Prop}
    (gathers : port.Gathers Delivers) : port.Honest :=
  fun read => (gathers.delivered read).1

theorem Port.Streams.gathers {port : Port World} {pending : World → List UInt8}
    {Aside : World → World → Prop} (streams : port.Streams pending Aside) :
    port.Gathers fun before bytes after => pending before = bytes ++ pending after ∧
      Aside before after where
  nothing world := ⟨rfl, streams.refl world⟩
  append first second :=
    ⟨by rw [first.1, second.1, List.append_assoc], streams.trans first.2 second.2⟩
  delivered read := by
    rcases streams.delivered read with ⟨fits, split, supplied, aside⟩
    exact ⟨fits, supplied, split, aside⟩
  failed read := ⟨(streams.failed read).1.symm, (streams.failed read).2⟩
  stopped read := ⟨(streams.stopped read).1.symm, (streams.stopped read).2⟩

structure Port.ReadsThrough (port : Port World) (change : World → World) : Prop where
  read : ∀ wanted, Commutes change (port.read wanted)
  supply : ∀ world, port.supply (change world) = port.supply world

inductive Port.Starves (port : Port World) (wanted : Nat) (before : World) :
    Interruption → World → Prop
  | ended {after} (read : port.read wanted before = .ok (some []) after) :
      Starves port wanted before (.failed .endOfStream) after
  | failed {after} (read : port.read wanted before = .ok none after) :
      Starves port wanted before (.failed (.port .read)) after
  | stopped {stop after} (read : port.read wanted before = .error stop after) :
      Starves port wanted before (.stopped stop) after

def Port.silent : Port Unit where
  read _ := pure (some [])
  write bytes := pure (some bytes.length)
  flush := pure true
  supply _ := 0

theorem Verdict.received?_eq_none_iff (verdict : Verdict) :
    verdict.received? = none ↔ verdict = .skipped := by
  cases verdict <;> simp [received?]

namespace Link

def stream (pending : World → List UInt8) (link : Link capacity World) : List UInt8 :=
  link.staged.toList ++ pending link.world

theorem release_run {link : Link capacity World} {count : Nat}
    {staged : StagingBuffer capacity}
    (released : link.staged.release? ⟨count⟩ = some staged) :
    Link.release count link = .ok () { link with staged } := by
  rw [Link.release, get_bind]
  simp only [released]
  rfl

theorem refill_run (port : Port World) {link : Link capacity World}
    {region : StagingBuffer.Region} (room : link.staged.room? = some region) :
    Link.refill port link =
      match port.read region.length link.world with
      | .ok (some (byte :: rest)) world =>
          .ok ()
            { staged := (link.staged.fill region (byte :: rest)).claim (rest.length + 1),
              world }
      | .ok (some []) world => .error (.failed .endOfStream) { link with world }
      | .ok none world => .error (.failed (.port .read)) { link with world }
      | .error stop world => .error (.stopped stop) { link with world } := by
  rw [Link.refill, get_bind]
  simp only [room]
  simp only [bind, EStateM.bind, Component.lift, worldComponent, Activity.ofAction]
  rcases port.read region.length link.world with
    ⟨_ | ⟨_ | ⟨byte, rest⟩⟩, world⟩ | ⟨stop, world⟩ <;> rfl

def mapWorld (change : World → World) (link : Link capacity World) :
    Link capacity World :=
  { link with world := change link.world }

private theorem release_commutes {change : World → World} (count : Nat) :
    Commutes (mapWorld change : Link capacity World → _) (Link.release count) := by
  intro link
  rw [Link.release, get_bind, get_bind]
  simp only [mapWorld]
  cases link.staged.release? ⟨count⟩ <;> rfl

private theorem refill_commutes {port : Port World} {change : World → World}
    (through : port.ReadsThrough change) :
    Commutes (mapWorld change : Link capacity World → _) (Link.refill port) := by
  intro link
  cases room : link.staged.room? with
  | none =>
      rw [Link.refill, get_bind, get_bind]
      simp only [mapWorld, room]
      rfl
  | some region =>
      rw [refill_run port room,
        refill_run port (show (mapWorld change link).staged.room? =
          some region from room)]
      simp only [mapWorld, through.read region.length link.world]
      rcases port.read region.length link.world with
        ⟨_ | ⟨_ | ⟨byte, rest⟩⟩, world⟩ | ⟨stop, world⟩ <;> rfl

end Link

namespace Responder

variable {responder : Responder World} {port : Port World}
  {Delivers : World → List UInt8 → World → Prop} {pending : World →
    List UInt8} {Aside : World → World → Prop} {link : Link capacity World}

/-! ## One turn -/

theorem turn_of_unit {examined : Examined}
    (found : responder.examine link.staged.toList = some examined) :
    responder.turn port link =
      (Link.release examined.released >>= fun _ =>
        pure examined.verdict.received?) link := by
  rw [turn, get_bind]
  simp only [found]

theorem turn_of_examined (port : Port World) (wellFormed : link.staged.WellFormed)
    {examined : Examined} (found : responder.examine link.staged.toList = some examined) :
    ∃ staged, responder.turn port link =
        .ok examined.verdict.received? { link with staged } ∧ staged.WellFormed ∧
      staged.size + examined.released = link.staged.size ∧
      staged.toList = link.staged.toList.drop examined.released := by
  have bounds := examine_released found
  rw [wellFormed.length_toList] at bounds
  have sizeLe := wellFormed.size_le
  rcases wellFormed.release? (show 0 < capacity by omega) ⟨examined.released⟩ with
    ⟨staged, released, stillWellFormed, shrunk, left⟩
  change staged.size = link.staged.size - examined.released at shrunk
  refine ⟨staged, ?_, stillWellFormed, by omega, left⟩
  rw [turn_of_unit found, bind_of_ok (Link.release_run released)]
  rfl

theorem turn_of_full (nothing : responder.examine link.staged.toList = none)
    (full : link.staged.isFull = true) :
    responder.turn port link =
      .ok (some (.dropped .overflow)) { link with staged := link.staged.discard } := by
  rw [turn, get_bind]
  simp only [nothing, full]
  rfl

theorem turn_of_waiting (nothing : responder.examine link.staged.toList = none)
    (notFull : link.staged.isFull = false) :
    responder.turn port link = (Link.refill port >>= fun _ => pure none) link := by
  rw [turn, get_bind]
  simp only [nothing, notFull]
  rfl

inductive Turned (responder : Responder World) (port : Port World)
    (link : Link capacity World) :
    EStateM.Result Interruption (Link capacity World) (Option Received) → Prop
  | unit {examined staged} (found : responder.examine link.staged.toList = some examined)
      (wellFormed : staged.WellFormed)
      (shrunk : staged.size + examined.released = link.staged.size)
      (left : staged.toList = link.staged.toList.drop examined.released) :
      Turned responder port link (.ok examined.verdict.received? { link with staged })
  | overflow (nothing : responder.examine link.staged.toList = none)
      (full : link.staged.size = capacity) :
      Turned responder port link
        (.ok (some (.dropped .overflow)) { link with staged := link.staged.discard })
  | refilled {wanted bytes staged world}
      (read : port.read wanted link.world = .ok (some bytes) world)
      (nonempty : 0 < bytes.length) (wellFormed : staged.WellFormed)
      (grown : staged.size = link.staged.size + bytes.length)
      (joined : staged.toList = link.staged.toList ++ bytes) :
      Turned responder port link (.ok none { staged, world })
  | starved {reason world} (nothing : responder.examine link.staged.toList = none)
      (notFull : link.staged.size < capacity)
      (starves : ∃ wanted, 0 < wanted ∧ port.Starves wanted link.world reason world) :
      Turned responder port link (.error reason { link with world })

theorem turned (honest : port.Honest) (wellFormed : link.staged.WellFormed) :
    Turned responder port link (responder.turn port link) := by
  cases found : responder.examine link.staged.toList with
  | some examined =>
      rcases turn_of_examined port wellFormed found with
        ⟨staged, turned, stillWellFormed, shrunk, left⟩
      rw [turned]
      exact .unit found stillWellFormed shrunk left
  | none =>
      cases full : link.staged.isFull with
      | true =>
          rw [turn_of_full found full]
          exact .overflow found (by simpa [StagingBuffer.isFull] using full)
      | false =>
          have notFull : link.staged.size < capacity := by
            have sizeNe : link.staged.size ≠ capacity := by
              simpa [StagingBuffer.isFull] using full
            have sizeLe := wellFormed.size_le
            omega
          rcases wellFormed.room? full with ⟨region, room, _, asksForBytes, _⟩
          rw [turn_of_waiting found full]
          have refill := Link.refill_run port room
          cases read : port.read region.length link.world with
          | error stop world =>
              simp only [read] at refill
              rw [bind_of_error refill]
              exact .starved found notFull ⟨_, asksForBytes, .stopped read⟩
          | ok delivered world =>
              rcases delivered with _ | _ | ⟨byte, rest⟩
              · simp only [read] at refill
                rw [bind_of_error refill]
                exact .starved found notFull ⟨_, asksForBytes, .failed read⟩
              · simp only [read] at refill
                rw [bind_of_error refill]
                exact .starved found notFull ⟨_, asksForBytes, .ended read⟩
              · simp only [read] at refill
                rw [bind_of_ok refill]
                rcases wellFormed.claim_fill full room (honest read) with
                  ⟨stillWellFormed, grown, joined⟩
                exact .refilled read (Nat.succ_pos _) stillWellFormed grown joined

/-! ## Turns until something is received -/

/-- What receiving comes to, next to the bytes that were delivered meanwhile: it hands on
what comes next in the bytes staged before and those delivered, and keeps the rest, or a
read leaves it without bytes. -/
inductive Gathered (responder : Responder World) (port : Port World)
    (Delivers : World → List UInt8 → World → Prop) (link : Link capacity World) :
    EStateM.Result Interruption (Link capacity World) Received → Prop
  | received {bytes received after} (delivers : Delivers link.world bytes after.world)
      (next : responder.next? capacity (link.staged.toList ++ bytes) =
        some (received, after.staged.toList))
      (wellFormed : after.staged.WellFormed) :
      Gathered responder port Delivers link (.ok received after)
  | starved {bytes reason after} (delivers : Delivers link.world bytes after.world)
      (nothing : responder.next? capacity after.staged.toList = none)
      (left : after.staged.toList = responder.trim (link.staged.toList ++ bytes))
      (wellFormed : after.staged.WellFormed)
      (starves : ∃ wanted before, 0 < wanted ∧ Delivers link.world bytes before ∧
        port.Starves wanted before reason after.world) :
      Gathered responder port Delivers link (.error reason after)

structure GoesOn (responder : Responder World) (port : Port World)
    (Delivers : World → List UInt8 → World → Prop) (link : Link capacity World)
    (bytes : List UInt8) (after : Link capacity World) : Prop where
  wellFormed : after.staged.WellFormed
  delivers : Delivers link.world bytes after.world
  kept : ∀ more, responder.trim (after.staged.toList ++ more) =
    responder.trim (link.staged.toList ++ (bytes ++ more))
  cheaper : after.turnBudget port < link.turnBudget port

/-- What is gathered after a turn that goes on could have been gathered before it. -/
theorem GoesOn.gathered (gathers : port.Gathers Delivers) {first : List UInt8}
    {middle : Link capacity World}
    {result : EStateM.Result Interruption (Link capacity World) Received}
    (goesOn : GoesOn responder port Delivers link first middle)
    (gathered : Gathered responder port Delivers middle result) :
    Gathered responder port Delivers link result := by
  cases gathered with
  | @received bytes _ _ deliversRest next wellFormed =>
      exact .received (gathers.append goesOn.delivers deliversRest)
        ((next?_congr (goesOn.kept bytes)).symm.trans next) wellFormed
  | @starved bytes _ _ deliversRest nothing left wellFormed starves =>
      rcases starves with ⟨wanted, before, asksForBytes, deliversBefore, starves⟩
      exact .starved (gathers.append goesOn.delivers deliversRest) nothing
        (left.trans (goesOn.kept bytes)) wellFormed
        ⟨wanted, before, asksForBytes,
          gathers.append goesOn.delivers deliversBefore, starves⟩

/-- A stray delimiter is one staged byte less, which the turn that it costs was granted
for. -/
theorem goesOn_of_stray (gathers : port.Gathers Delivers)
    (wellFormed : link.staged.WellFormed) {examined : Examined}
    (found : responder.examine link.staged.toList = some examined)
    (stray : examined.verdict.received? = none) {staged : StagingBuffer capacity}
    (stillWellFormed : staged.WellFormed)
    (left : staged.toList = link.staged.toList.drop examined.released) :
    GoesOn responder port Delivers link [] { link with staged } := by
  rcases examine_skipped found ((Verdict.received?_eq_none_iff _).mp stray) with
    ⟨packets, single, rest, isZero⟩
  have length := wellFormed.length_toList
  have lengthLeft := stillWellFormed.length_toList
  rw [isZero, single, List.drop_one, List.tail_cons] at left
  rw [left] at lengthLeft
  rw [isZero, List.length_cons] at length
  refine ⟨stillWellFormed, gathers.nothing _, fun more => ?_, ?_⟩
  · simp [left, isZero, trim_zero_cons packets]
  · simp only [Link.turnBudget]
    omega

/-- Each byte that was read counts twice before and once behind, and at least one was
read. -/
theorem goesOn_of_read (gathers : port.Gathers Delivers) {wanted : Nat}
    {bytes : List UInt8} {staged : StagingBuffer capacity} {world : World}
    (read : port.read wanted link.world = .ok (some bytes) world)
    (nonempty : 0 < bytes.length) (wellFormed : staged.WellFormed)
    (grown : staged.size = link.staged.size + bytes.length)
    (joined : staged.toList = link.staged.toList ++ bytes) :
    GoesOn responder port Delivers link bytes { staged, world } := by
  rcases gathers.delivered read with ⟨_, supplied, delivers⟩
  refine ⟨wellFormed, delivers, fun more => by simp [joined], ?_⟩
  simp only [Link.turnBudget]
  omega

private theorem gathered_of_unit (gathers : port.Gathers Delivers)
    (wellFormed : link.staged.WellFormed) {examined : Examined}
    (found : responder.examine link.staged.toList = some examined) {received : Received}
    (handedOn : examined.verdict.received? = some received)
    {staged : StagingBuffer capacity} (stillWellFormed : staged.WellFormed)
    (left : staged.toList = link.staged.toList.drop examined.released) :
    Gathered responder port Delivers link (.ok received { link with staged }) := by
  have fits : link.staged.toList.length ≤ capacity :=
    wellFormed.length_toList ▸ wellFormed.size_le
  have next := next?_of_examine found handedOn fits
  rw [← left, ← List.append_nil link.staged.toList] at next
  exact .received (gathers.nothing _) next stillWellFormed

private theorem gathered_of_full (gathers : port.Gathers Delivers)
    (wellFormed : link.staged.WellFormed)
    (nothing : responder.examine link.staged.toList = none)
    (full : link.staged.size = capacity) :
    Gathered responder port Delivers link
      (.ok (.dropped .overflow) { link with staged := link.staged.discard }) := by
  have next := next?_of_full nothing (wellFormed.length_toList.trans full)
  rw [← List.append_nil link.staged.toList, ← link.staged.toList_discard] at next
  exact .received (gathers.nothing _) next (StagingBuffer.wellFormed_discard _)

private theorem gathered_of_starved (gathers : port.Gathers Delivers)
    (wellFormed : link.staged.WellFormed)
    (nothing : responder.examine link.staged.toList = none)
    (notFull : link.staged.size < capacity) {wanted : Nat} (asksForBytes : 0 < wanted)
    {reason : Interruption} {world : World}
    (starves : port.Starves wanted link.world reason world) :
    Gathered responder port Delivers link (.error reason { link with world }) := by
  have delivers : Delivers link.world [] world := by
    cases starves with
    | ended read => exact (gathers.delivered read).2.2
    | failed read => exact gathers.failed read
    | stopped read => exact gathers.stopped read
  have short : link.staged.toList.length < capacity := wellFormed.length_toList ▸ notFull
  have left : link.staged.toList = responder.trim (link.staged.toList ++ []) := by
    rw [List.append_nil, trim_of_nothing nothing]
  exact .starved delivers (next?_of_waiting nothing short) left wellFormed
    ⟨wanted, link.world, asksForBytes, gathers.nothing _, starves⟩

private theorem receiveWithin_gathered (gathers : port.Gathers Delivers) (turns : Nat)
    (wellFormed : link.staged.WellFormed) (enough : link.turnBudget port ≤ turns) :
    Gathered responder port Delivers link (responder.receiveWithin port turns link) := by
  induction turns generalizing link with
  | zero => simp [Link.turnBudget] at enough
  | succ turns induction =>
      have goOn {bytes : List UInt8} {after : Link capacity World}
          (goesOn : GoesOn responder port Delivers link bytes after) :
          Gathered responder port Delivers link
            (responder.receiveWithin port turns after) :=
        goesOn.gathered gathers
          (induction goesOn.wellFormed
            (Nat.le_of_lt_succ (Nat.lt_of_lt_of_le goesOn.cheaper enough)))
      rw [receiveWithin]
      generalize result : responder.turn port link = outcome
      have turned : Turned responder port link outcome :=
        result ▸ turned gathers.honest wellFormed
      cases turned with
      | @unit examined staged found stillWellFormed _ left =>
          rw [bind_of_ok result]
          cases handedOn : examined.verdict.received? with
          | some received =>
              exact gathered_of_unit gathers wellFormed found handedOn
                stillWellFormed left
          | none =>
              exact goOn (goesOn_of_stray gathers wellFormed found handedOn
                stillWellFormed left)
      | overflow nothing full =>
          rw [bind_of_ok result]
          exact gathered_of_full gathers wellFormed nothing full
      | refilled read nonempty stillWellFormed grown joined =>
          rw [bind_of_ok result]
          exact goOn (goesOn_of_read gathers read nonempty stillWellFormed grown joined)
      | starved nothing notFull starves =>
          rw [bind_of_error result]
          rcases starves with ⟨wanted, asksForBytes, starves⟩
          exact gathered_of_starved gathers wellFormed nothing notFull
            asksForBytes starves

theorem receive_gathered (gathers : port.Gathers Delivers)
    (wellFormed : link.staged.WellFormed) :
    Gathered responder port Delivers link (responder.receive port link) := by
  rw [receive, get_bind]
  exact receiveWithin_gathered gathers _ wellFormed (Nat.le_refl _)

/-! ## What comes next in a stream -/

inductive Reception (responder : Responder World) (port : Port World)
    (pending : World → List UInt8) (Aside : World → World → Prop)
    (link : Link capacity World) :
    EStateM.Result Interruption (Link capacity World) Received → Prop
  | received {received rest after}
      (next : responder.next? capacity (link.stream pending) = some (received, rest))
      (left : responder.trim (after.stream pending) = responder.trim rest)
      (wellFormed : after.staged.WellFormed) (aside : Aside link.world after.world) :
      Reception responder port pending Aside link (.ok received after)
  | starved {reason after} (nothing : responder.next? capacity after.staged.toList = none)
      (left : responder.trim (after.stream pending) =
        responder.trim (link.stream pending))
      (wellFormed : after.staged.WellFormed) (aside : Aside link.world after.world)
      (starves : ∃ wanted before, 0 < wanted ∧ Aside link.world before ∧
        port.Starves wanted before reason after.world) :
      Reception responder port pending Aside link (.error reason after)

/-- Receiving hands on what comes next in the list of bytes to come, unless a read leaves
it without bytes. -/
theorem receive_reception (streams : port.Streams pending Aside)
    (wellFormed : link.staged.WellFormed) :
    Reception responder port pending Aside link (responder.receive port link) := by
  have gathered : Gathered responder port _ link (responder.receive port link) :=
    receive_gathered streams.gathers wellFormed
  generalize responder.receive port link = result at gathered
  cases gathered with
  | @received bytes received after delivers next stillWellFormed =>
      rcases delivers with ⟨split, aside⟩
      rcases next?_append_trim next (pending after.world) with ⟨rest, nextInStream, left⟩
      rw [List.append_assoc, ← split] at nextInStream
      exact .received nextInStream left.symm stillWellFormed aside
  | @starved bytes reason after delivers nothing left stillWellFormed starves =>
      rcases delivers with ⟨split, aside⟩
      rcases starves with ⟨wanted, before, asksForBytes, readBefore, starves⟩
      refine .starved nothing ?_ stillWellFormed aside ⟨wanted, before, asksForBytes,
        readBefore.2, starves⟩
      rw [Link.stream, left, trim_append, Link.stream, split, List.append_assoc]

/-! ## Receiving in a changed world -/

private theorem turn_commutes {change : World → World}
    (through : port.ReadsThrough change) :
    Commutes (Link.mapWorld change : Link capacity World → _) (responder.turn port) := by
  intro link
  let altered := Link.mapWorld change link
  cases found : responder.examine link.staged.toList with
  | some examined =>
      have alteredFound : responder.examine altered.staged.toList = some examined := found
      rw [turn_of_unit found, turn_of_unit alteredFound]
      exact Commutes.bind (Link.release_commutes _) (fun _ => .pure _) link
  | none =>
      have alteredNothing : responder.examine altered.staged.toList = none := found
      cases full : link.staged.isFull with
      | true =>
          have alteredFull : altered.staged.isFull = true := full
          rw [turn_of_full found full, turn_of_full alteredNothing alteredFull]
          rfl
      | false =>
          have alteredNotFull : altered.staged.isFull = false := full
          rw [turn_of_waiting found full, turn_of_waiting alteredNothing alteredNotFull]
          exact Commutes.bind (Link.refill_commutes through) (fun _ => .pure _) link

private theorem receiveWithin_commutes {change : World → World}
    (through : port.ReadsThrough change) (turns : Nat) :
    Commutes (Link.mapWorld change : Link capacity World →
      _) (responder.receiveWithin port turns) := by
  induction turns with
  | zero => exact .throw _
  | succ turns induction =>
      apply Commutes.bind (turn_commutes through)
      intro handedOn
      cases handedOn with
      | some received => exact .pure received
      | none => exact induction

theorem receive_commutes {change : World → World} (through : port.ReadsThrough change) :
    Commutes (Link.mapWorld change : Link capacity World →
      _) (responder.receive port) := by
  intro link
  have sameTurns : (Link.mapWorld change link).turnBudget port =
      link.turnBudget port := by
    simp only [Link.turnBudget, Link.mapWorld, through.supply]
  rw [receive, get_bind, get_bind, sameTurns]
  exact receiveWithin_commutes through _ link

/-- What is received is a matter of the units that are found, whatever else the responder
does. -/
theorem receive_congr {other : Responder World}
    (same : ∀ bytes, responder.examine bytes = other.examine bytes)
    (link : Link capacity World) :
    responder.receive port link = other.receive port link := by
  have sameTurn : (responder.turn port : Activity (Link capacity World) _) =
      other.turn port := by
    simp only [turn, same]
  have sameTurns : ∀ turns,
      (responder.receiveWithin port turns : Activity (Link capacity World) _) =
      other.receiveWithin port turns := by
    intro turns
    induction turns with
    | zero => rfl
    | succ turns induction => simp only [receiveWithin, sameTurn, induction]
  simp only [receive, sameTurns]

/-! ## How turns end -/

/-- Turns end with the last one, which hands something on or is interrupted, or none is
left. An invariant of the link holds before the last turn. -/
inductive Ended (responder : Responder World) (port : Port World)
    (Invariant : Link capacity World → Prop) :
    EStateM.Result Interruption (Link capacity World) Received → Prop
  | received {last received after} (holds : Invariant last)
      (ran : responder.turn port last = .ok (some received) after) :
      Ended responder port Invariant (.ok received after)
  | interrupted {last reason after} (holds : Invariant last)
      (ran : responder.turn port last = .error reason after) :
      Ended responder port Invariant (.error reason after)
  | outOfTurns {last} (holds : Invariant last) :
      Ended responder port Invariant (.error (.stopped .outOfTurns) last)

theorem receiveWithin_ended {Invariant : Link capacity World → Prop}
    (kept : ∀ {before after}, Invariant before →
      responder.turn port before = .ok none after → Invariant after)
    (turns : Nat) (holds : Invariant link) :
    Ended responder port Invariant (responder.receiveWithin port turns link) := by
  induction turns generalizing link with
  | zero => exact .outOfTurns holds
  | succ turns induction =>
      rw [receiveWithin]
      cases ran : responder.turn port link with
      | error reason after =>
          rw [bind_of_error ran]
          exact .interrupted holds ran
      | ok handedOn after =>
          rw [bind_of_ok ran]
          cases handedOn with
          | some received => exact .received holds ran
          | none => exact induction (kept holds ran)

theorem receive_ended (responder : Responder World) (port : Port World)
    (link : Link capacity World) :
    Ended responder port (fun _ => True) (responder.receive port link) := by
  rw [receive, get_bind]
  exact receiveWithin_ended (fun _ _ => trivial) _ trivial

theorem turn_keeps (honest : port.Honest) {handedOn : Option Received}
    {after : Link capacity World} (wellFormed : link.staged.WellFormed)
    (ran : responder.turn port link = .ok handedOn after) :
    after.staged.WellFormed := by
  have turned : Turned responder port link _ := turned honest wellFormed
  rw [ran] at turned
  cases turned with
  | unit _ stillWellFormed _ _ => exact stillWellFormed
  | overflow _ _ => exact StagingBuffer.wellFormed_discard _
  | refilled _ _ stillWellFormed _ _ => exact stillWellFormed

/-- The ring is well-formed before each turn. -/
theorem receiveWithin_ended_wellFormed (honest : port.Honest) (turns : Nat)
    (wellFormed : link.staged.WellFormed) :
    Ended responder port (fun last => last.staged.WellFormed)
      (responder.receiveWithin port turns link) :=
  receiveWithin_ended (fun stillWellFormed ran => turn_keeps honest stillWellFormed ran)
    turns wellFormed

/-! ## What can be handed on at all -/

def ComesOf (responder : Responder World) (bytes : List UInt8)
    (received : Received) : Prop :=
  received = .dropped .overflow ∨ ∃ examined, responder.examine bytes = some examined ∧
    examined.verdict.received? = some received

private theorem turn_comesOf {received : Received} {after : Link capacity World}
    (ran : responder.turn port link = .ok (some received) after) :
    responder.ComesOf link.staged.toList received := by
  rw [turn, get_bind] at ran
  cases found : responder.examine link.staged.toList with
  | some examined =>
      simp only [found] at ran
      rcases ok_of_bind ran with ⟨_, middle, _, handedOn⟩
      exact .inr ⟨examined, found, (EStateM.Result.ok.inj handedOn).1⟩
  | none =>
      simp only [found] at ran
      split at ran
      · rcases ok_of_bind ran with ⟨_, middle, _, handedOn⟩
        exact .inl (Option.some.inj (EStateM.Result.ok.inj handedOn).1).symm
      · rcases ok_of_bind ran with ⟨_, middle, _, handedOn⟩
        cases (EStateM.Result.ok.inj handedOn).1

theorem receive_comesOf {received : Received} {after : Link capacity World}
    (ran : responder.receive port link = .ok received after) :
    ∃ bytes, responder.ComesOf bytes received := by
  have ended := responder.receive_ended port link
  rw [ran] at ended
  cases ended with
  | received _ turned => exact ⟨_, turn_comesOf turned⟩

end Responder

end TriggerBench
