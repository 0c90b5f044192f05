import TriggerBench.Proofs.RunCommand
import TriggerBench.Proofs.SerialDriver

/-! # Serving over the soft core's serial line

What a rig on a soft core makes of the bytes that it receives depends on these bytes
alone: it takes up the units that come one after the other in them, however the status
register groups them into reads. What it sends is what it prints and the packets that
answer the units, in this order. No poll fails; it waits without end, or the workload
breaks down.
-/

namespace TriggerBench

open Simulation

variable {World : Type} {capacity : Nat}

namespace SoftCore

open Watch

structure Account where
  /-- The bytes that were taken from the serial line. -/
  heard : List UInt8
  /-- What was received, if anything was. -/
  unit? : Option Received
  /-- The bytes that were sent. -/
  said : List UInt8
  result : Except Interruption Outcome

def speech (settings : Settings) (received : Received) : List UInt8 :=
  (match settings.outcome received with
    | .handled _ _ => settings.printed confirmation
    | .rejected _ => []) ++
    (settings.protocol.outcomePackets (settings.outcome received)).flatMap
      settings.protocol.form

namespace Account

/-- What a poll can come to between two worlds. What was received is answered, unless the
line is waited for without end meanwhile or the workload breaks down. Or else the line is
waited for without end before anything is received. -/
inductive Holds (watch : Watch World) (bus : Bus World) (settings : Settings)
    (workload : Action World Unit) :
    Account → World → World → Prop
  | answered {heard received before after}
      (carries : watch.Carries heard (speech settings received) before after) :
      Holds watch bus settings workload
        { heard
          unit? := some received
          said := speech settings received
          result := .ok (settings.outcome received) }
        before after
  | halted {heard received said before middle after}
      (isPart : said <+: speech settings received)
      (carries : watch.Carries heard said before middle)
      (waits : Waits bus transmitterFull middle after) :
      Holds watch bus settings workload
        { heard, unit? := some received, said,
          result := .error (.stopped .endlessWait) } before after
  | broken {heard received stop raised left before after}
      (isRun : settings.IsRun received) (breaks : workload raised = .error stop left)
      (carries : watch.Carries heard [] before after) :
      Holds watch bus settings workload
        { heard, unit? := some received, said := [],
          result := .error (.stopped stop) } before after
  | waiting {heard before middle after} (carries : watch.Carries heard [] before middle)
      (waits : Waits bus nothingReceived middle after) :
      Holds watch bus settings workload
        { heard, unit? := none, said := [],
          result := .error (.stopped .endlessWait) } before after

def Takes (settings : Settings) (capacity : Nat) (account : Account)
    (staged left : List UInt8) : Prop :=
  match account.unit? with
  | some received =>
      settings.plainResponder.next? capacity (staged ++ account.heard) =
        some (received, left)
  | none =>
      settings.plainResponder.next? capacity (staged ++ account.heard) = none ∧
        left = settings.plainResponder.trim (staged ++ account.heard)

variable {watch : Watch World} {bus : Bus World} {settings : Settings}
  {workload : Action World Unit} {account : Account} {before after : World}

private theorem Holds.not_failed
    (holds : account.Holds watch bus settings workload before after)
    (error : ServiceError) :
    account.result ≠ .error (.failed error) := by
  cases holds <;> simp

private theorem Holds.unit_of_ok
    (holds : account.Holds watch bus settings workload before after) {outcome : Outcome}
    (answered : account.result = .ok outcome) :
    ∃ received, account.unit? = some received := by
  cases holds with
  | @answered _ received => exact ⟨received, rfl⟩
  | halted => cases answered
  | broken => cases answered
  | waiting => cases answered

end Account

/-! ## Units of consecutive polls -/

inductive TakenUp (settings : Settings) (capacity : Nat) :
    List UInt8 → List Account → List UInt8 → Prop
  | nil {staged} : TakenUp settings capacity staged [] staged
  | cons {staged middle left account accounts}
      (takes : account.Takes settings capacity staged middle)
      (later : TakenUp settings capacity middle accounts left) :
      TakenUp settings capacity staged (account :: accounts) left

namespace TakenUp

variable {settings : Settings} {staged left : List UInt8} {accounts : List Account}

/-- How the bytes are spread over the polls does not matter for what is taken up. -/
theorem units (positive : 0 < capacity)
    (takenUp : TakenUp settings capacity staged accounts left) :
    settings.plainResponder.unitsIn capacity (staged ++ accounts.flatMap Account.heard) =
      accounts.filterMap Account.unit? ++ settings.plainResponder.unitsIn
        capacity left := by
  induction takenUp with
  | nil => simp
  | @cons staged middle left account accounts takes _ induction =>
      rw [List.flatMap_cons, ← List.append_assoc]
      cases unit : account.unit? with
      | some received =>
          simp only [Account.Takes, unit] at takes
          rw [Responder.unitsIn_of_next positive
            (Responder.next?_append positive takes _), induction,
            List.filterMap_cons_some unit, List.cons_append]
      | none =>
          simp only [Account.Takes, unit] at takes
          rcases takes with ⟨_, rfl⟩
          rw [← Responder.unitsIn_congr positive (Responder.trim_append _ _), induction,
            List.filterMap_cons_none unit]

/-- Where the last poll waits, there is nothing more to take up. -/
theorem nothing_left {earlier : List Account} {last : Account}
    (takenUp : TakenUp settings capacity staged (earlier ++ [last]) left)
    (waits : last.unit? = none) :
    settings.plainResponder.next? capacity left = none := by
  induction earlier generalizing staged with
  | nil =>
      cases takenUp with
      | cons takes later =>
          cases later
          simp only [Account.Takes, waits] at takes
          rw [takes.2, Responder.next?_trim]
          exact takes.1
  | cons account earlier induction =>
      cases takenUp with
      | cons _ later => exact induction later

end TakenUp

/-! ## Accounts of polls -/

inductive Held (watch : Watch World) (bus : Bus World) (settings : Settings)
    (workload : Action World Unit) :
    World → List Account → World → Prop
  | nil {world} : Held watch bus settings workload world [] world
  | cons {before middle after account accounts}
      (holds : account.Holds watch bus settings workload before middle)
      (later : Held watch bus settings workload middle accounts after) :
      Held watch bus settings workload before (account :: accounts) after

private theorem Held.not_failed {watch : Watch World} {bus : Bus World}
    {settings : Settings} {workload : Action World Unit} {before after : World}
    {accounts : List Account}
    (held : Held watch bus settings workload before accounts after) :
    ∀ account ∈ accounts, ∀ error, account.result ≠ .error (.failed error) := by
  induction held with
  | nil => simp
  | cons holds _ induction => exact List.forall_mem_cons.mpr ⟨holds.not_failed, induction⟩

/-- Polls on a link that starts afresh. They take up the units that come first in all that
is heard, and never fail. -/
structure Serves (watch : Watch World) (bus : Bus World) (settings : Settings)
    (workload : Action World Unit) (capacity : Nat) (before : World)
    (accounts : List Account) (after : World) : Prop where
  held : Held watch bus settings workload before accounts after
  units : accounts.filterMap Account.unit? <+:
    settings.plainResponder.unitsIn capacity (accounts.flatMap Account.heard)
  /-- If the last poll waits for more, there are no further units in what was heard. -/
  allUnits : ∀ earlier last, accounts = earlier ++ [last] → last.unit? = none →
    accounts.filterMap Account.unit? = settings.plainResponder.unitsIn capacity
      (accounts.flatMap Account.heard)
  neverFails : ∀ account ∈ accounts, ∀ error, account.result ≠ .error (.failed error)

structure Polled (watch : Watch World) (bus : Bus World) (settings : Settings)
    (workload : Action World Unit) (link : Link capacity World) (account : Account)
    (after : Link capacity World) : Prop where
  holds : account.Holds watch bus settings workload link.world after.world
  takes : account.Takes settings capacity link.staged.toList after.staged.toList
  exchanged : watch.Exchanges bus account.heard account.said link.world after.world
  wellFormed : after.staged.WellFormed

structure Served (watch : Watch World) (bus : Bus World) (settings : Settings)
    (workload : Action World Unit) (link : Link capacity World) (accounts : List Account)
    (after : Link capacity World) : Prop where
  held : Held watch bus settings workload link.world accounts after.world
  takenUp : TakenUp settings capacity link.staged.toList accounts after.staged.toList
  exchanged :
    watch.Exchanges bus (accounts.flatMap Account.heard) (accounts.flatMap Account.said)
      link.world after.world

variable {watch : Watch World} {bus : Bus World} {settings : Settings}
  {workload : Action World Unit}

/-- A poll that is answered takes up at least one byte. -/
theorem Polled.shrinks (positive : 0 < capacity) {link after : Link capacity World}
    {account : Account} (wellFormed : link.staged.WellFormed)
    (polled : Polled watch bus settings workload link account after) {outcome : Outcome}
    (answered : account.result = .ok outcome) :
    after.staged.size + bus.supply after.world <
      link.staged.size + bus.supply link.world := by
  rcases polled.holds.unit_of_ok answered with ⟨received, isUnit⟩
  have takes := polled.takes
  simp only [Account.Takes, isUnit] at takes
  have shorter := Responder.next?_shorter positive takes
  have supplied := polled.exchanged.supplied
  rw [List.length_append, wellFormed.length_toList,
    polled.wellFormed.length_toList] at shorter
  omega

theorem Served.nil (link : Link capacity World) :
    Served watch bus settings workload link [] link :=
  ⟨.nil, .nil, .refl _⟩

theorem Served.cons {link middle after : Link capacity World} {account : Account}
    {accounts : List Account}
    (polled : Polled watch bus settings workload link account middle)
    (later : Served watch bus settings workload middle accounts after) :
    Served watch bus settings workload link (account :: accounts) after where
  held := .cons polled.holds later.held
  takenUp := .cons polled.takes later.takenUp
  exchanged := polled.exchanged.trans later.exchanged

/-- On a link that starts afresh, all that is taken up was heard on it. -/
theorem Served.serves {world : World} {accounts : List Account}
    {after : Link capacity World} (positive : 0 < capacity)
    (served : Served watch bus settings workload (.fresh world) accounts after) :
    Serves watch bus settings workload capacity world accounts after.world := by
  have nothingStaged : (Link.fresh world : Link capacity World).staged.toList = [] :=
    StagingBuffer.toList_of_size_eq_zero rfl
  have takenUp := served.takenUp
  rw [nothingStaged] at takenUp
  have units := takenUp.units positive
  rw [List.nil_append] at units
  exact
    { held := served.held
      units := ⟨_, units.symm⟩
      allUnits := by
        rintro earlier last rfl waits
        rw [units, Responder.unitsIn_of_nothing (takenUp.nothing_left waits),
          List.append_nil]
      neverFails := served.held.not_failed }

/-! ## Polling -/

section Polling

variable (follows : watch.Follows bus) (leaves : watch.Leaves bus workload)
include follows leaves

/-- What was received is answered with its packets, or the workload breaks down before
anything is said. -/
theorem answer_speaks_or_breaks (received : Received) (world : World) :
    let answered :=
      (rig settings bus workload).runResponder.answer (Uart.port bus) received world
    Speaks watch bus (.stopped .endlessWait) (settings.outcome received)
        (speech settings received) world answered ∨
      (∃ stop raised left after, answered = .error (.stopped stop) after ∧
        settings.IsRun received ∧
        workload raised = .error stop left ∧ watch.Exchanges bus [] [] world after) := by
  intro answered
  have isAnswered : answered = _ :=
    congrFun (Responder.answer_eq _ (Uart.port bus) received) world
  have sends := fun outcome => (port_accounts follows).sendPackets settings.protocol
    (settings.protocol.outcomePackets_isShort outcome)
  rw [isAnswered]
  by_cases isRun : settings.IsRun received
  · have isOutcome := Settings.outcome_of_isRun isRun
    simp only [speech, isOutcome]
    rcases isRun with ⟨frame, rfl, isCommand, isLength⟩
    rcases measure_speaks_or_breaks follows leaves settings.debug frame.payload.bytes
      world with speaks | ⟨stop, raised, left, after, measured, breaks, exchanged⟩
    · have settles : Speaks watch bus (.stopped .endlessWait)
          (settings.protocol.outcomePackets (.handled settings.command Status.ok.code),
            Outcome.handled settings.command Status.ok.code)
          (settings.printed confirmation) world
          ((rig settings bus workload).runResponder.settle (.frame frame) world) := by
        rw [@Rig.settle_of_run _ (rig settings bus workload) _ isCommand isLength]
        exact .map (.ofAction speaks) fun _ => rfl
      exact .inl (.bind settles fun middle => .map (sends _ middle) fun _ => rfl)
    · have settled :=
        @Rig.settle_of_broken _ (rig settings bus workload) _ _ _ isCommand
          isLength _ measured
      rw [bind_of_error settled]
      exact .inr ⟨stop, raised, left, after, rfl, ⟨frame, rfl, isCommand, isLength⟩,
        breaks, exchanged⟩
  · rcases Settings.outcome_of_not_isRun isRun with ⟨reason, rejected⟩
    have settles := @Rig.settle_of_rejected _ (rig settings bus workload) _ _ rejected
    simp only [speech, rejected, settles, pure_bind, List.nil_append]
    exact .inl (.map (sends _ world) fun _ => rfl)

theorem serveOne_polled {link : Link capacity World}
    (wellFormed : link.staged.WellFormed) :
    let ended :=
      Session.ending ((rig settings bus workload).runResponder.serveOne
        (Uart.port bus)) link
    ∃ account, ended.1 = account.result ∧
      Polled watch bus settings workload link account ended.2 := by
  let responder := (rig settings bus workload).runResponder
  have gathered : Responder.Gathered responder (Uart.port bus) _ link
      (responder.receive (Uart.port bus) link) :=
    Responder.receive_gathered (port_gathers follows) wellFormed
  have nextIs := Rig.next?_runResponder (rig settings bus workload) capacity
  generalize ran : responder.receive (Uart.port bus) link = result at gathered
  cases gathered with
  | @received bytes received middle delivers next stillWellFormed =>
      rw [nextIs] at next
      have served : responder.serveOne (Uart.port bus) link =
          Link.worldComponent.lift (responder.answer (Uart.port bus) received) middle :=
        bind_of_ok ran
      simp only [Session.ending, responder] at served ⊢
      simp only [served, Component.lift, Link.worldComponent]
      rcases answer_speaks_or_breaks follows leaves received middle.world with
        speaks | ⟨stop, raised, left, after, answered, isRun, breaks, exchanged⟩
      · generalize (rig settings bus workload).runResponder.answer (Uart.port bus)
          received middle.world = answered at speaks
        cases speaks with
        | all exchanged =>
            have both := delivers.then_sends exchanged
            exact ⟨_, rfl, .answered both.carried, next, both, stillWellFormed⟩
        | cut isPart exchanged waits =>
            have both := delivers.then_sends exchanged
            exact ⟨_, rfl, .halted isPart both.carried waits, next,
              both.then_waits follows waits, stillWellFormed⟩
      · have both := delivers.then_sends exchanged
        rw [answered]
        exact ⟨_, rfl, .broken isRun breaks both.carried, next, both, stillWellFormed⟩
  | @starved bytes reason after delivers nothing left stillWellFormed starves =>
      rcases starves with ⟨wanted, before, asksForBytes, deliversBefore, starves⟩
      rcases port_starves follows asksForBytes starves with ⟨rfl, waits⟩
      have served : responder.serveOne (Uart.port bus) link =
          .error (.stopped .endlessWait) after := bind_of_error ran
      rw [left, Responder.next?_trim, nextIs] at nothing
      simp only [Session.ending, responder] at served ⊢
      rw [served]
      exact ⟨_, rfl, .waiting deliversBefore.carried waits, ⟨nothing, left⟩, delivers,
        stillWellFormed⟩

/-- Serving goes on until a poll is stopped: there are as many polls as there could be
bytes for them. -/
theorem serveWithin_served (positive : 0 < capacity) {frames : Nat}
    {link : Link capacity World} (wellFormed : link.staged.WellFormed)
    (enough : link.staged.size + bus.supply link.world < frames) :
    let stopped :=
      (rig settings bus workload).runResponder.serveWithin (Uart.port bus) frames link
    ∃ earlier last, (∀ account ∈ earlier, ∃ outcome, account.result = .ok outcome) ∧
      last.result = .error (.stopped stopped.1) ∧
        Served watch bus settings workload link (earlier ++ [last]) stopped.2 := by
  induction frames generalizing link with
  | zero => omega
  | succ frames induction =>
      rcases serveOne_polled follows leaves wellFormed with ⟨account, result, polled⟩
      simp only [Session.ending] at result polled
      rw [Responder.serveWithin]
      rcases ran : (rig settings bus workload).runResponder.serveOne (Uart.port bus)
        link with ⟨outcome, after⟩ | ⟨error | stop, after⟩
      · rw [ran] at result polled
        -- The bytes that are staged or still supplied become fewer, and with them the
        -- polls that are needed.
        have shrinks := polled.shrinks positive wellFormed result.symm
        rcases induction polled.wellFormed (by omega) with
          ⟨earlier, last, answered, isLast, served⟩
        refine ⟨account :: earlier, last, ?_, isLast, .cons polled served⟩
        exact List.forall_mem_cons.mpr ⟨⟨outcome, result.symm⟩, answered⟩
      · rw [ran] at result polled
        exact absurd result.symm (polled.holds.not_failed error)
      · rw [ran] at result polled
        exact ⟨[], account, by simp, result.symm, .cons polled (.nil after)⟩

end Polling

end SoftCore

end TriggerBench
