import TriggerBench.Proofs.Receiving
import TriggerBench.Proofs.Transmission
import TriggerBench.Responder.Serve

/-! # Polls on a bench

A poll serves one frame. What it came to is kept together with what was logged meanwhile:
the reads, the calls of the handlers, and what the port was asked to send. Handlers are
state machines on the memory of the bench.
-/

namespace TriggerBench

namespace Simulation

def Delivery.data : Delivery → List UInt8
  | bytes data => data
  | failure => []

def Line.pending (line : Line) : List UInt8 :=
  line.deliveries.flatMap Delivery.data

namespace Line

def delivering (deliveries : List Delivery) (line : Line) : Line :=
  { line with deliveries }

def sendingBy (acceptance : Acceptance) (writes accepted : Nat) (flushes : Schedule)
    (line : Line) : Line :=
  { line with acceptance, writes, accepted, flushes }

/-- What a read takes is no more than was asked for, and no more than there is to
deliver. -/
theorem read_delivered {line after : Line} {wanted : Nat} {bytes : List UInt8}
    (read : line.read wanted = (.delivered bytes, after)) :
    bytes.length ≤ wanted ∧ line.pending = bytes ++ after.pending ∧
      bytes.length + after.supply ≤ line.supply ∧ ∃ deliveries,
        after = line.delivering deliveries := by
  unfold Line.read at read
  split at read
  case h_1 none =>
      split at read <;> simp only [Prod.mk.injEq, reduceCtorEq, LineRead.delivered.injEq,
        false_and] at read
      rcases read with ⟨rfl, rfl⟩
      exact ⟨Nat.zero_le _, rfl, by simp, line.deliveries, rfl⟩
  case h_2 => simp at read
  case h_3 data rest delivery =>
      simp only [Prod.mk.injEq, LineRead.delivered.injEq] at read
      rcases read with ⟨rfl, rfl⟩
      generalize takes : min wanted (line.readLimit.getD wanted) = count
      have countLe : count ≤ wanted := by omega
      refine ⟨by simp only [List.length_take]; omega, ?_, ?_, _, rfl⟩
      · split
        case isTrue empty =>
            have taken : data.take count = data :=
              List.take_of_length_le (by simpa using empty)
            simp [pending, delivery, Delivery.data, taken]
        case isFalse left => simp [pending, delivery, Delivery.data, ← List.append_assoc]
      · split
        case isTrue empty =>
            have taken : data.take count = data :=
              List.take_of_length_le (by simpa using empty)
            simp [supply, delivery, Delivery.weight, taken]
        case isFalse left =>
            simp only [supply, delivery, List.foldr_cons, Delivery.weight,
              List.length_take, List.length_drop]
            omega

private theorem read_failed {line after : Line} {wanted : Nat}
    (read : line.read wanted = (.failed, after)) :
    after.pending = line.pending ∧ ∃ deliveries, after = line.delivering deliveries := by
  unfold Line.read at read
  split at read
  case h_1 => split at read <;> simp at read
  case h_2 rest delivery =>
      simp only [Prod.mk.injEq, true_and] at read
      subst read
      exact ⟨by simp [pending, delivery, Delivery.data], rest, rfl⟩
  case h_3 => simp at read

/-- A read waits only where there is nothing to deliver, and leaves the line as it is. -/
theorem read_waiting {line after : Line} {wanted : Nat}
    (read : line.read wanted = (.waiting, after)) :
    after = line := by
  unfold Line.read at read
  split at read
  case h_1 =>
      split at read <;>
        simp only [Prod.mk.injEq, reduceCtorEq, false_and, true_and] at read
      exact read.symm
  case h_2 => simp at read
  case h_3 => simp at read

/-- A line that delivers some of what it holds when it is read. -/
def Flows (line : Line) : Prop :=
  line.readLimit ≠ some 0

private theorem read_supply_le (line : Line) (wanted : Nat) :
    (line.read wanted).2.supply ≤ line.supply := by
  cases read : line.read wanted with
  | mk outcome after =>
      cases outcome with
      | delivered bytes =>
          have supplied := (read_delivered read).2.2.1
          change after.supply ≤ line.supply
          omega
      | failed =>
          unfold Line.read at read
          split at read
          case h_1 => split at read <;> simp at read
          case h_2 rest delivery =>
              simp only [Prod.mk.injEq, true_and] at read
              simp [← read, supply, delivery, Delivery.weight]
          case h_3 => simp at read
      | waiting => exact Nat.le_of_eq (congrArg supply (read_waiting read))

theorem Flows.portion_pos {line : Line} (flows : line.Flows) {wanted : Nat}
    (positive : 0 < wanted) :
    0 < min wanted (line.readLimit.getD wanted) := by
  cases limit : line.readLimit with
  | none => simpa using positive
  | some most =>
      have mostNe : most ≠ 0 := by
        rintro rfl
        exact flows limit
      simp only [Option.getD_some]
      omega

/-- A delivery of which a read takes no bytes has none. -/
theorem Flows.data_eq_nil {line : Line} (flows : line.Flows) {wanted : Nat}
    (positive : 0 < wanted) {data : List UInt8} {rest : List Delivery}
    (deliveries : line.deliveries = .bytes data :: rest)
    (nothing : ∀ bytes, (line.read wanted).1 = .delivered bytes → bytes = []) :
    data = [] := by
  have taken : data.take (min wanted (line.readLimit.getD wanted)) = [] := by
    apply nothing
    simp only [Line.read, deliveries]
  have portion := flows.portion_pos positive
  rcases List.take_eq_nil_iff.mp taken with none | isEmpty
  · omega
  · exact isEmpty

/-- A read without any bytes takes up a delivery, unless there are none. -/
theorem read_ebbs {line : Line} (flows : line.Flows) {wanted : Nat}
    (positive : 0 < wanted)
    (nothing : ∀ bytes, (line.read wanted).1 = .delivered bytes → bytes = []) :
    (line.read wanted).2.supply < line.supply ∨ (line.read wanted).2.pending = [] := by
  cases deliveries : line.deliveries with
  | nil => exact .inr (by simp [Line.read, deliveries, pending])
  | cons delivery rest =>
      cases delivery with
      | failure => exact .inl (by simp [Line.read, deliveries, supply, Delivery.weight])
      | bytes data =>
          have isEmpty := flows.data_eq_nil positive deliveries nothing
          exact .inl (by simp [Line.read, deliveries, isEmpty, supply, Delivery.weight])

end Line

namespace Event

def isRead : Event → Bool
  | read _ _ => true
  | _ => false

def isCall : Event → Bool
  | called _ _ _ => true
  | _ => false

theorem isRead_of_isCall {event : Event} (isCall : event.isCall = true) :
    event.isRead = false := by
  cases event <;> simp [Event.isCall, isRead] at isCall ⊢

theorem isRead_of_isTransmission {event : Event}
    (isTransmission : event.isTransmission = true) :
    event.isRead = false := by
  cases event <;> simp [Event.isTransmission, isRead] at isTransmission ⊢

end Event

namespace Bench

variable {Memory : Type}

def altered (alter : Line → Line) (earlier : List Event)
    (bench : Bench Memory) : Bench Memory :=
  { bench with line := alter bench.line, log := earlier ++ bench.log }

def cleared (bench : Bench Memory) : Bench Memory :=
  { bench with log := [] }

def memoryComponent : Component (Bench Memory) Memory where
  get bench := bench.memory
  set memory bench := { bench with memory }

def attended (name : Nat) (handler : Handler Memory) :
    Handler (Bench Memory) := fun request reply => do
  trace (.called name request [])
  memoryComponent.lift (handler request reply)

def plain : Bench Unit where
  line :=
    { deliveries := []
      readLimit := none
      endless := false
      acceptance := .limited none none
      writes := 0
      accepted := 0
      flushes := .ofFailures fun _ => false }
  display := { throughWriter := false, budget := none, accepted := 0 }
  raising := .ofFailures fun _ => false
  lowering := .ofFailures fun _ => false
  workload := { executions := .ofFailures fun _ => false }
  memory := ()
  log := []

theorem plain_faultless : plain.line.Faultless where
  progresses := by
    intro calls accepted offered positive
    simp only [plain, Acceptance.limited, Option.getD_none, Nat.min_self, ne_eq,
      Option.some.injEq]
    omega
  accepts := by simp [plain, Acceptance.limited]
  flushes _ := rfl

end Bench

end Simulation

open Simulation

variable {Memory : Type} {capacity : Nat}

def Responder.attended (responder : Responder Memory) : Responder (Bench Memory) where
  protocol := responder.protocol
  table :=
    { entries := responder.table.entries.map fun entry =>
        { command := entry.command
          length := entry.length
          handler := Bench.attended entry.command.toNat entry.handler } }
  answersVersion := responder.answersVersion

def Responder.ofOnePacket : Responder Unit where
  protocol := .v2_1
  table :=
    { entries := [{ command := 0x31, length := 1,
                    handler := fun _ reply => pure { status := 0, reply } }] }
  answersVersion := false

structure Poll where
  result : Except Interruption Outcome
  log : List Event

namespace Poll

def ofResult {State : Type} (bench : State → Bench Memory) :
    EStateM.Result Interruption State Outcome → Poll × State
  | .ok outcome after => ({ result := .ok outcome, log := (bench after).log }, after)
  | .error reason after => ({ result := .error reason, log := (bench after).log }, after)

theorem ofResult_lift (activity : Activity (Bench Memory) Outcome)
    (link : Link capacity (Bench Memory)) :
    ofResult Link.world (Link.worldComponent.lift activity link) =
      ((ofResult id (activity link.world)).1,
        { link with world := (ofResult id (activity link.world)).2 }) := by
  simp only [Component.lift, Link.worldComponent]
  cases activity link.world <;> rfl

def isStarved (poll : Poll) : Bool :=
  match poll.result with
  | .error (.failed (.port .read)) | .error (.failed .endOfStream) => true
  | .error (.stopped .endlessWait) => poll.log.all Event.isRead
  | _ => false

def withoutReads (poll : Poll) : Poll where
  result := poll.result
  log := poll.log.filter fun event => !event.isRead

end Poll

namespace Responder

def poll (responder : Responder (Bench Memory)) (link : Link capacity (Bench Memory)) :
    Poll × Link capacity (Bench Memory) :=
  Poll.ofResult Link.world (responder.serveOne Bench.port (link.mapWorld Bench.cleared))

def polls (responder : Responder (Bench Memory)) :
    (times : Nat) → Link capacity (Bench Memory) →
      List Poll × Link capacity (Bench Memory)
  | 0, link => ([], link)
  | times + 1, link =>
      let (first, after) := responder.poll link
      let (rest, final) := responder.polls times after
      (first :: rest, final)

theorem polls_succ (responder : Responder (Bench Memory)) (times : Nat)
    (link : Link capacity (Bench Memory)) :
    responder.polls (times + 1) link =
      ((responder.poll link).1 :: (responder.polls times (responder.poll link).2).1,
        (responder.polls times (responder.poll link).2).2) :=
  rfl

end Responder

/-! ## What the port and the handlers notice -/

namespace Simulation

namespace Bench

variable {alter : Line → Line} {earlier : List Event}

theorem attended_run (name : Nat) (handler : Handler Memory) (request : Request)
    (reply : Reply) (bench : Bench Memory) :
    attended name handler request reply bench =
      match handler request reply bench.memory with
      | .ok answer memory =>
          .ok answer { bench with memory, log := bench.log ++ [.called name request []] }
      | .error stop memory =>
          .error stop { bench with
            memory, log := bench.log ++ [.called name request []] } := by
  change memoryComponent.lift (handler request reply)
    (bench.record (.called name request [])) = _
  simp only [Component.lift, memoryComponent, record]
  cases handler request reply bench.memory <;> rfl

private theorem attended_commutes (name : Nat) (handler : Handler Memory)
    (request : Request) (reply : Reply) :
    Commutes (altered alter earlier) (attended name handler request reply) := by
  intro bench
  rw [attended_run, attended_run]
  simp only [altered]
  cases handler request reply bench.memory <;> simp [changed, altered]

theorem attended_handlers (responder : Responder Memory) :
    ∀ entry ∈ responder.attended.table.entries, ∀ request reply,
      Commutes (altered alter earlier) (entry.handler request reply) := by
  intro entry member request reply
  rcases List.mem_map.mp member with ⟨original, _, rfl⟩
  exact attended_commutes _ _ request reply

theorem port_sendsThrough (deliveries : List Delivery) (earlier : List Event) :
    (port : Port (Bench Memory)).Sends
      (Commutes (altered (Line.delivering deliveries) earlier)) where
  write bytes bench := by
    simp only [port, writeLine, altered, Line.write, Line.delivering]
    cases bench.line.acceptance bench.line.writes bench.line.accepted bytes.length <;>
      simp [changed, altered, Line.delivering, record]
  flush bench := by
    simp [port, flushLine, altered, Line.flush, Line.delivering, changed, record]

theorem port_readsThrough (acceptance : Acceptance) (writes accepted : Nat)
    (flushes : Schedule) (earlier : List Event) :
    (port : Port (Bench Memory)).ReadsThrough
      (altered (Line.sendingBy acceptance writes accepted flushes) earlier) where
  read wanted bench := by
    rcases bench with ⟨⟨deliveries, readLimit, endless⟩⟩
    simp only [port, readLine, altered, Line.read, Line.sendingBy]
    cases deliveries with
    | nil => cases endless <;> simp [changed, altered, Line.sendingBy, record]
    | cons delivery rest =>
        cases delivery <;> simp [changed, altered, Line.sendingBy, record]
  supply _ := rfl

/-- Reads take deliveries away and are logged. Nothing else about the bench changes. -/
def ReadFrom (before after : Bench Memory) : Prop :=
  ∃ deliveries reads, (∀ event ∈ reads, event.isRead) ∧
    after = { before with
      line := before.line.delivering deliveries, log := before.log ++ reads }

theorem ReadFrom.onlyReads {before after : Bench Memory}
    (read : ReadFrom before.cleared after) :
    ∀ event ∈ after.log, event.isRead := by
  rcases read with ⟨_, reads, areReads, rfl⟩
  exact areReads

theorem ReadFrom.memory {before after : Bench Memory}
    (read : ReadFrom before.cleared after) :
    after.memory = before.memory := by
  rcases read with ⟨_, _, _, rfl⟩
  rfl

theorem ReadFrom.workload {before after : Bench Memory}
    (read : ReadFrom before.cleared after) :
    after.workload = before.workload := by
  rcases read with ⟨_, _, _, rfl⟩
  rfl

theorem ReadFrom.faultless {before after : Bench Memory}
    (read : ReadFrom before.cleared after) (faultless : before.line.Faultless) :
    after.line.Faultless := by
  rcases read with ⟨_, _, _, rfl⟩
  exact faultless.congr rfl rfl

theorem port_streams :
    (port : Port (Bench Memory)).Streams (fun bench => bench.line.pending) ReadFrom where
  refl bench := ⟨bench.line.deliveries, [], by simp, by simp [Line.delivering]⟩
  trans := by
    rintro first _ _ ⟨_, reads, areReads, rfl⟩ ⟨deliveries, moreReads, moreAreReads, rfl⟩
    exact ⟨deliveries, reads ++ moreReads,
      List.forall_mem_append.mpr ⟨areReads, moreAreReads⟩, by simp [Line.delivering]⟩
  delivered := by
    intro wanted bench bytes after read
    simp only [port, readLine] at read
    cases ofLine : bench.line.read wanted with
    | mk outcome line =>
        cases outcome <;>
          simp only [ofLine, EStateM.Result.ok.injEq, reduceCtorEq, false_and] at read
        rcases read with ⟨equal, rfl⟩
        cases equal
        rcases Line.read_delivered ofLine with ⟨countLe, split, supplied, deliveries, rfl⟩
        exact ⟨countLe, split, supplied, deliveries,
          [.read wanted (some bytes.length)], by simp [Event.isRead], rfl⟩
  failed := by
    intro wanted bench after read
    simp only [port, readLine] at read
    cases ofLine : bench.line.read wanted with
    | mk outcome line =>
        cases outcome <;>
          simp only [ofLine, EStateM.Result.ok.injEq, reduceCtorEq, false_and] at read
        rcases read with ⟨_, rfl⟩
        rcases Line.read_failed ofLine with ⟨kept, deliveries, rfl⟩
        exact ⟨kept, deliveries, [.read wanted none], by simp [Event.isRead], rfl⟩
  stopped := by
    intro wanted bench stop after read
    simp only [port, readLine] at read
    cases ofLine : bench.line.read wanted with
    | mk outcome line =>
        cases outcome <;>
          simp only [ofLine, EStateM.Result.error.injEq, reduceCtorEq] at read
        rcases read with ⟨_, rfl⟩
        exact ⟨rfl, bench.line.deliveries, [], by simp, by simp [Line.delivering]⟩

theorem port_starves {wanted : Nat} {before after : Bench Memory} {reason : Interruption}
    (starves : port.Starves wanted before reason after) :
    after.line = (before.line.read wanted).2 ∧
      ∀ bytes, (before.line.read wanted).1 = .delivered bytes → bytes = [] := by
  cases starves with
  | ended isRead =>
      simp only [port, readLine] at isRead
      rcases read : before.line.read wanted with ⟨bytes | _ | _, line⟩ <;>
        simp only [read, EStateM.Result.ok.injEq, Option.some.injEq, reduceCtorEq,
          false_and] at isRead
      rcases isRead with ⟨rfl, rfl⟩
      exact ⟨rfl, fun bytes isDelivered => (LineRead.delivered.inj isDelivered).symm⟩
  | failed isRead =>
      simp only [port, readLine] at isRead
      rcases read : before.line.read wanted with ⟨bytes | _ | _, line⟩ <;>
        simp only [read, EStateM.Result.ok.injEq, reduceCtorEq, false_and] at isRead
      rw [← isRead.2]
      exact ⟨rfl, by simp⟩
  | stopped isRead =>
      simp only [port, readLine] at isRead
      rcases read : before.line.read wanted with ⟨bytes | _ | _, line⟩ <;>
        simp only [read, EStateM.Result.error.injEq, reduceCtorEq] at isRead
      rw [← isRead.2]
      exact ⟨(Line.read_waiting read).symm, by simp⟩

private theorem port_read_line {wanted : Nat} {before after : Bench Memory}
    {bytes : List UInt8} (read : port.read wanted before = .ok (some bytes) after) :
    after.line = (before.line.read wanted).2 := by
  simp only [port, readLine] at read
  rcases ofLine : before.line.read wanted with ⟨_ | _ | _, line⟩
  all_goals
    simp only [ofLine, EStateM.Result.ok.injEq, reduceCtorEq, false_and] at read
  rw [← read.2]
  rfl

/-- What holds between a line and the line behind a read holds over any number of
reads. -/
theorem port_streams_along {related : Line → Line → Prop}
    (refl : ∀ line, related line line)
    (trans : ∀ {first second third}, related first second → related second third →
      related first third)
    (reads : ∀ line wanted, related line (line.read wanted).2) :
    (port : Port (Bench Memory)).Streams (fun bench => bench.line.pending)
      fun before after => ReadFrom before after ∧ related before.line after.line where
  refl bench := ⟨port_streams.refl bench, refl _⟩
  trans first second := ⟨port_streams.trans first.1 second.1, trans first.2 second.2⟩
  delivered read := by
    rcases port_streams.delivered read with ⟨countLe, split, supplied, aside⟩
    refine ⟨countLe, split, supplied, aside, ?_⟩
    rw [port_read_line read]
    exact reads _ _
  failed {wanted before after} read := by
    rcases port_streams.failed read with ⟨kept, aside⟩
    rw [(port_starves (.failed read)).1] at kept ⊢
    exact ⟨kept, aside, reads _ _⟩
  stopped {wanted before stop after} read := by
    rcases port_streams.stopped read with ⟨kept, aside⟩
    rw [(port_starves (.stopped read)).1] at kept ⊢
    exact ⟨kept, aside, reads _ _⟩

/-- Reads that are counted against the supply of the line. -/
theorem port_streams_supplied :
    (port : Port (Bench Memory)).Streams (fun bench => bench.line.pending)
    fun before after => ReadFrom before after ∧ after.line.supply ≤ before.line.supply :=
  @port_streams_along Memory (fun before after => after.supply ≤ before.supply) (fun _ =>
    Nat.le_refl _) (fun first second => Nat.le_trans second first) Line.read_supply_le

theorem port_read_error {bench after : Bench Memory} {wanted : Nat} {stop : Stop}
    (read : port.read wanted bench = .error stop after) : stop = .endlessWait := by
  simp only [port, readLine] at read
  cases ofLine : bench.line.read wanted with
  | mk outcome line =>
      cases outcome <;>
        simp only [ofLine, reduceCtorEq, EStateM.Result.error.injEq] at read
      exact read.1.symm

end Bench

end Simulation

theorem Responder.receive_onBench (responder : Responder (Bench Memory))
    {link : Link capacity (Bench Memory)} (wellFormed : link.staged.WellFormed) :
    Reception responder Bench.port (fun bench => bench.line.pending) Bench.ReadFrom link
      (responder.receive Bench.port link) :=
  receive_reception Bench.port_streams wellFormed

/-! ## One poll -/

def Link.toCome (link : Link capacity (Bench Memory)) : List UInt8 :=
  link.stream fun bench => bench.line.pending

namespace Responder

/-- What one poll comes to, whatever the handlers do: it answers what came next in the
bytes to come, on the bench that its reads left behind, or a read leaves it without
bytes. -/
inductive Served (responder : Responder (Bench Memory))
    (link : Link capacity (Bench Memory)) :
    Poll × Link capacity (Bench Memory) → Prop
  | answered {received rest middle}
      (ran : responder.receive Bench.port (link.mapWorld Bench.cleared) =
        .ok received middle)
      (next : responder.next? capacity link.toCome = some (received, rest))
      (left : responder.trim middle.toCome = responder.trim rest)
      (wellFormed : middle.staged.WellFormed)
      (read : Bench.ReadFrom link.world.cleared middle.world)
      (supplied : middle.world.line.supply ≤ link.world.line.supply) :
      Served responder link
        ((Poll.ofResult id (responder.answer Bench.port received middle.world)).1,
          { middle with
            world :=
              (Poll.ofResult id (responder.answer Bench.port received middle.world)).2 })
  | starved {reason after}
      (isStarved : ({ result := .error reason, log := after.world.log } :
        Poll).isStarved = true)
      (nothing : responder.next? capacity after.staged.toList = none)
      (left : responder.trim after.toCome = responder.trim link.toCome)
      (wellFormed : after.staged.WellFormed)
      (read : Bench.ReadFrom link.world.cleared after.world)
      (supplied : after.world.line.supply ≤ link.world.line.supply)
      (ebbed : link.world.line.Flows → after.world.line.supply < link.world.line.supply ∨
        after.world.line.pending = []) :
      Served responder link ({ result := .error reason, log := after.world.log }, after)

theorem poll_of_receive {responder : Responder (Bench Memory)}
    {link after : Link capacity (Bench Memory)} {received : Received}
    (ran : responder.receive Bench.port (link.mapWorld Bench.cleared) =
      .ok received after) :
    responder.poll link =
      Poll.ofResult Link.world
        (Link.worldComponent.lift (responder.answer Bench.port received) after) := by
  rw [poll, serveOne, bind_of_ok ran]

theorem poll_of_receive_error {responder : Responder (Bench Memory)}
    {link after : Link capacity (Bench Memory)} {reason : Interruption}
    (ran : responder.receive Bench.port (link.mapWorld Bench.cleared) =
      .error reason after) :
    responder.poll link =
      ({ result := .error reason, log := after.world.log }, after) := by
  rw [poll, serveOne, bind_of_error ran]
  rfl

theorem poll_served (responder : Responder (Bench Memory))
    {link : Link capacity (Bench Memory)} (wellFormed : link.staged.WellFormed) :
    Served responder link (responder.poll link) := by
  have startWellFormed : (link.mapWorld Bench.cleared).staged.WellFormed := wellFormed
  have reception : Reception responder Bench.port (fun bench => bench.line.pending) _ _
      (responder.receive Bench.port (link.mapWorld Bench.cleared)) :=
    receive_reception Bench.port_streams_supplied startWellFormed
  generalize ran : responder.receive Bench.port (link.mapWorld Bench.cleared) =
    result at reception
  cases reception with
  | received next left stillWellFormed aside =>
      rw [poll_of_receive ran, Poll.ofResult_lift]
      exact .answered ran next left stillWellFormed aside.1 aside.2
  | @starved reason after nothing left stillWellFormed aside starves =>
      rcases starves with ⟨wanted, before, asksForBytes, readBefore, starves⟩
      rw [poll_of_receive_error ran]
      refine .starved ?_ nothing left stillWellFormed aside.1 aside.2 ?_
      · cases starves with
        | ended => rfl
        | failed => rfl
        | stopped read =>
            cases Bench.port_read_error read
            simpa [Poll.isStarved] using Bench.ReadFrom.onlyReads aside.1
      · intro flows
        rcases Bench.port_starves starves with ⟨isLine, noBytes⟩
        have stillFlows : before.line.Flows := by
          rcases readBefore.1 with ⟨_, _, _, rfl⟩
          exact flows
        rw [isLine]
        rcases Line.read_ebbs stillFlows asksForBytes noBytes with ebbed | nothingLeft
        · exact .inl (Nat.lt_of_lt_of_le ebbed readBefore.2)
        · exact .inr nothingLeft

theorem poll_wellFormed (responder : Responder (Bench Memory))
    {link : Link capacity (Bench Memory)} (wellFormed : link.staged.WellFormed) :
    (responder.poll link).2.staged.WellFormed := by
  have served := poll_served responder wellFormed
  generalize responder.poll link = polled at served ⊢
  cases served with
  | answered _ _ _ stillWellFormed => exact stillWellFormed
  | starved _ _ _ stillWellFormed => exact stillWellFormed

end Responder

end TriggerBench
