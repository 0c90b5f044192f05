import TriggerBench.Proofs.LosslessServing

/-! # Runs over the soft core's serial line

A rig on a soft core is set up and then measures or serves. What goes over its serial line
during the whole run is what its parts receive and send in turn, and nothing besides.
-/

namespace TriggerBench

open Simulation

variable {World : Type}

private theorem Session.ending_map {Reason State Result Next : Type}
    (activity : EStateM Reason State Result) (change : Result → Next) (state : State) :
    ending (activity >>= fun result => pure (change result)) state =
      ((ending activity state).1.map change, (ending activity state).2) := by
  simp only [ending]
  cases ran : activity state with
  | ok result after =>
      rw [bind_of_ok ran]
      rfl
  | error reason after =>
      rw [bind_of_error ran]
      rfl

namespace SoftCore

open Watch

inductive Confirms (watch : Watch World) (bus : Bus World) (settings : Settings)
    (workload : Action World Unit) :
    Except Stop Status → List UInt8 → World → World → Prop
  | confirmed {before after}
      (carries : watch.Carries [] (settings.printed confirmation) before after) :
      Confirms watch bus settings workload (.ok .ok)
        (settings.printed confirmation) before after
  | halted {part before middle after} (isPart : part <+: settings.printed confirmation)
      (carries : watch.Carries [] part before middle)
      (waits : Waits bus transmitterFull middle after) :
      Confirms watch bus settings workload (.error .endlessWait) part before after
  | broken {stop raised left before after} (breaks : workload raised = .error stop left)
      (carries : watch.Carries [] [] before after) :
      Confirms watch bus settings workload (.error stop) [] before after

/-- What serving without end comes to, and what is received and sent meanwhile. All polls
are answered up to the one that is stopped. -/
inductive Stops (watch : Watch World) (bus : Bus World) (settings : Settings)
    (workload : Action World Unit) :
    Except Stop RegistrationError → List UInt8 → List UInt8 → World → World → Prop
  | refused {world} (long : maxPayload < settings.payloadLength) :
      Stops watch bus settings workload (.ok .payloadTooLong) [] [] world world
  | stopped {stop earlier last before after} (fits : settings.payloadLength ≤ maxPayload)
      (answered : ∀ account ∈ earlier, ∃ outcome, account.result = .ok outcome)
      (isLast : last.result = .error (.stopped stop))
      (serves : Serves watch bus settings workload frameCapacity before
        (earlier ++ [last]) after) :
      Stops watch bus settings workload (.error stop)
        ((earlier ++ [last]).flatMap Account.heard)
        ((earlier ++ [last]).flatMap Account.said) before after

inductive Tells (watch : Watch World) (bus : Bus World) (settings : Settings)
    (workload : Action World Unit) :
    Session.Rigging.Step → Session.Rigging.Answer CoreEvent → List UInt8 → List UInt8 →
      World → World → Prop
  | mode {world} :
      Tells watch bus settings workload .mode (.mode settings.mode) [] [] world world
  | settings {world} :
      Tells watch bus settings workload .settings (.settings settings) [] [] world world
  | fed {deliveries world} :
      Tells watch bus settings workload (.feed deliveries) .done [] [] world world
  | measured {result log said before after}
      (confirms : Confirms watch bus settings workload result said before after) :
      Tells watch bus settings workload .measureOnce (.measured { result, log }) []
        said before after
  | ranOnce {result log said before after} (single : settings.mode = .singleShot)
      (confirms : Confirms watch bus settings workload result said before after) :
      Tells watch bus settings workload .run (.ran { result := result.map .ok, log }) []
        said before after
  | ranServing {result log heard said before after} (loop : settings.mode = .serialLoop)
      (stops : Stops watch bus settings workload result heard said before after) :
      Tells watch bus settings workload .run (.ran { result := result.map .error, log })
        heard said before after
  | refused {times log world} (long : maxPayload < settings.payloadLength) :
      Tells watch bus settings workload (.serveOne times)
        (.refused { result := .payloadTooLong, log }) [] [] world world
  | served {times accounts outcomes before after}
      (fits : settings.payloadLength ≤ maxPayload) (count : accounts.length = times)
      (results : outcomes.map (·.result) = accounts.map Account.result)
      (serves : Serves watch bus settings workload frameCapacity before accounts after) :
      Tells watch bus settings workload (.serveOne times) (.served outcomes)
        (accounts.flatMap Account.heard) (accounts.flatMap Account.said) before after
  | stopped {result log heard said before after}
      (stops : Stops watch bus settings workload result heard said before after) :
      Tells watch bus settings workload .serve (.stopped { result, log }) heard
        said before after

inductive TellsAll (watch : Watch World) (bus : Bus World) (settings : Settings)
    (workload : Action World Unit) :
    List Session.Rigging.Step → List (Session.Rigging.Answer CoreEvent) → List UInt8 →
      List UInt8 → World → World → Prop
  | nil {world} : TellsAll watch bus settings workload [] [] [] [] world world
  | cons {step steps answer answers heard moreHeard said moreSaid before middle after}
      (tells : Tells watch bus settings workload step answer heard said before middle)
      (later : TellsAll watch bus settings workload steps answers moreHeard
        moreSaid middle after) :
      TellsAll watch bus settings workload (step :: steps) (answer :: answers)
        (heard ++ moreHeard) (said ++ moreSaid) before after

/-- What a run comes to, and what is received and sent over all of it. The banner is
printed first. If the line is waited for without end meanwhile, no steps are taken. -/
inductive Recounts (watch : Watch World) (bus : Bus World) (settings : Settings)
    (workload : Action World Unit) (steps : List Session.Rigging.Step) :
    Session.Rigging.Record CoreEvent → List UInt8 → List UInt8 → World → World → Prop
  | through {log answers heard said before ready after}
      (opens : watch.Carries [] (settings.printed banner) before ready)
      (tells :
        TellsAll watch bus settings workload steps answers heard said ready after) :
      Recounts watch bus settings workload steps
        { setUp := { result := .ok (), log }, answers } heard
        (settings.printed banner ++ said) before after
  | halted {log part before middle after} (isPart : part <+: settings.printed banner)
      (carries : watch.Carries [] part before middle)
      (waits : Waits bus transmitterFull middle after) :
      Recounts watch bus settings workload steps
        { setUp := { result := .error .endlessWait, log }, answers := [] } []
        part before after

variable {watch : Watch World} {bus : Bus World} {settings : Settings}
  {workload : Action World Unit}
  (follows : watch.Follows bus) (leaves : watch.Leaves bus workload)
include follows leaves

/-! ## Activities of a rig -/

private theorem measureOnce_confirms (world : World) :
    let ended := Session.ending (rig settings bus workload).measureOnce world
    ∃ said, Confirms watch bus settings workload ended.1 said world ended.2 ∧
      watch.Exchanges bus [] said world ended.2 := by
  have measured :=
    measure_speaks_or_breaks follows leaves settings.debug [settings.sentinel] world
  simp only [Session.ending]
  rcases measured with speaks | ⟨stop, raised, left, after, measured, breaks, exchanged⟩
  · change Speaks watch bus _ _ _ _
      ((rig settings bus workload).measureOnce world) at speaks
    generalize (rig settings bus workload).measureOnce world = result at speaks
    cases speaks with
    | all exchanged => exact ⟨_, .confirmed exchanged.carried, exchanged⟩
    | cut isPart exchanged waits =>
        exact ⟨_, .halted isPart exchanged.carried waits,
          exchanged.then_waits follows waits⟩
  · change (rig settings bus workload).measureOnce world = _ at measured
    rw [measured]
    exact ⟨_, .broken breaks exchanged.carried, exchanged⟩

private theorem serve_stops (world : World) :
    let ended := Session.ending (rig settings bus workload).serve world
    ∃ heard said, Stops watch bus settings workload ended.1 heard said world ended.2 ∧
      watch.Exchanges bus heard said world ended.2 := by
  intro ended
  rcases Nat.lt_or_ge maxPayload settings.payloadLength with long | fits
  · have refused := @Rig.responder_of_long _ (rig settings bus workload) long
    have isEnded : ended = (.ok .payloadTooLong, world) := by
      simp only [ended, Session.ending, Rig.serve, refused]
    rw [isEnded]
    exact ⟨[], [], .refused long, .refl world⟩
  · have registered := @Rig.responder_of_fits _ (rig settings bus workload) fits
    let link : Rig.Connection World := .fresh world
    let served := (rig settings bus workload).runResponder.serve (Uart.port bus) link
    have isEnded : ended = (.error served.1, served.2.world) := by
      simp only [ended, Session.ending, Rig.serve, registered]
      rfl
    rw [isEnded]
    have wellFormed : link.staged.WellFormed := StagingBuffer.wellFormed_empty
    rcases serveWithin_served follows leaves (by decide) wellFormed
      (Nat.lt_succ_self _) with ⟨earlier, last, answered, isLast, served⟩
    exact ⟨_, _, .stopped fits answered isLast (served.serves (by decide)),
      served.exchanged⟩

private theorem run_tells (log : List CoreEvent) (world : World) :
    let ended := Session.ending (rig settings bus workload).run world
    ∃ heard said, Tells watch bus settings workload .run (.ran { result := ended.1, log })
        heard said world ended.2 ∧ watch.Exchanges bus heard said world ended.2 := by
  cases mode : settings.mode with
  | singleShot =>
      have isRun : (rig settings bus workload).run =
          ((rig settings bus workload).measureOnce >>= fun status =>
            pure (.ok status)) := by
        simp only [Rig.run, rig, mode]
      rw [isRun, Session.ending_map]
      rcases measureOnce_confirms follows leaves world with ⟨said, confirms, exchanged⟩
      exact ⟨[], said, .ranOnce mode confirms, exchanged⟩
  | serialLoop =>
      have isRun : (rig settings bus workload).run =
          ((rig settings bus workload).serve >>= fun error => pure (.error error)) := by
        simp only [Rig.run, rig, mode]
      rw [isRun, Session.ending_map]
      rcases serve_stops follows leaves world with ⟨heard, said, stops, exchanged⟩
      exact ⟨heard, said, .ranServing mode stops, exchanged⟩

/-! ## Steps -/

private theorem observeTimes_served (times : Nat) {link : Rig.Connection World}
    (wellFormed : link.staged.WellFormed) :
    let observed :=
      Session.observeTimes (Session.Rigging.drainConnection (scene watch bus workload))
      ((rig settings bus workload).runResponder.serveOne (Uart.port bus)) times link
    ∃ accounts, accounts.length = times ∧
      observed.1.map (·.result) = accounts.map Account.result ∧
      Served watch bus settings workload link accounts observed.2 := by
  induction times generalizing link with
  | zero => exact ⟨[], rfl, rfl, .nil link⟩
  | succ times induction =>
      rcases serveOne_polled follows leaves wellFormed with ⟨account, result, polled⟩
      rcases induction polled.wellFormed with ⟨accounts, count, results, served⟩
      have allResults := congr (congrArg List.cons result) results
      exact ⟨account :: accounts, congrArg (· + 1) count, allResults, .cons polled served⟩

private theorem take_tells (step : Session.Rigging.Step) (world : World) :
    let taken :=
      Session.Rigging.take (scene watch bus workload)
        (rig settings bus workload) step world
    ∃ heard said, Tells watch bus settings workload step taken.1 heard said world
        taken.2 ∧ watch.Exchanges bus heard said world taken.2 := by
  cases step with
  | mode => exact ⟨[], [], .mode, .refl world⟩
  | settings => exact ⟨[], [], .settings, .refl world⟩
  | feed deliveries => exact ⟨[], [], .fed, .refl world⟩
  | measureOnce =>
      rcases measureOnce_confirms follows leaves world with ⟨said, confirms, exchanged⟩
      exact ⟨[], said, .measured confirms, exchanged⟩
  | run => exact run_tells follows leaves _ world
  | serve =>
      rcases serve_stops follows leaves world with ⟨heard, said, stops, exchanged⟩
      exact ⟨heard, said, .stopped stops, exchanged⟩
  | serveOne times =>
      intro taken
      rcases Nat.lt_or_ge maxPayload settings.payloadLength with long | fits
      · have refused := @Rig.responder_of_long _ (rig settings bus workload) long
        have isTaken : taken =
            (.refused { result := .payloadTooLong, log := watch.log world }, world) := by
          simp only [taken, Session.Rigging.take, refused]
          rfl
        rw [isTaken]
        exact ⟨[], [], .refused long, .refl world⟩
      · have registered := @Rig.responder_of_fits _ (rig settings bus workload) fits
        let link : Rig.Connection World := .fresh world
        let observed :=
          Session.observeTimes
            (Session.Rigging.drainConnection (scene watch bus workload))
            ((rig settings bus workload).runResponder.serveOne (Uart.port bus)) times link
        have isTaken : taken = (.served observed.1, observed.2.world) := by
          simp only [taken, Session.Rigging.take, registered]
          rfl
        rw [isTaken]
        have wellFormed : link.staged.WellFormed := StagingBuffer.wellFormed_empty
        rcases observeTimes_served follows leaves times wellFormed with
          ⟨accounts, count, results, served⟩
        exact ⟨_, _, .served fits count results (served.serves (by decide)),
          served.exchanged⟩

private theorem answers_tell (steps : List Session.Rigging.Step) (world : World) :
    let watched := scene watch bus workload
    let answers :=
      Session.answers (Session.Rigging.take watched (rig settings bus workload))
        steps world
    let after :=
      Session.Rigging.afterSteps watched (rig settings bus workload) steps world
    ∃ heard said, TellsAll watch bus settings workload steps answers heard said world
        after ∧ watch.Exchanges bus heard said world after := by
  intro watched
  induction steps generalizing world with
  | nil => exact ⟨[], [], .nil, .refl world⟩
  | cons step steps induction =>
      rcases take_tells follows leaves step world with ⟨heard, said, tells, exchanged⟩
      rcases induction (Session.Rigging.take watched (rig settings bus workload) step
        world).2 with ⟨moreHeard, moreSaid, tellsMore, exchangedMore⟩
      exact ⟨_, _, .cons tells tellsMore, exchanged.trans exchangedMore⟩

/-! ## Runs -/

private theorem run_recounts (settings : Settings) (steps : List Session.Rigging.Step)
    (world : World) :
    let watched := scene watch bus workload
    let after := Session.Rigging.afterRun watched settings steps world
    ∃ heard said,
      Recounts watch bus settings workload steps
        (Session.Rigging.run watched settings world steps) heard said world after ∧
        watch.Exchanges bus heard said world after := by
  intro watched after
  have lowering := changeOutput_exchanges follows (· &&& ~~~triggerMask) world
  have printed :=
    print_speaks follows settings.debug banner
      (changeOutput bus (· &&& ~~~triggerMask) world)
  rw [show banner.takeWhile (· != 0) = banner by decide] at printed
  have speaks : Speaks watch bus .endlessWait (rig settings bus workload)
      (settings.printed banner) world
      (Rig.setUp settings (board bus) workload world) := by
    rw [setUp_run]
    exact .behind lowering (.map printed fun _ => rfl)
  generalize setUp : Rig.setUp settings (board bus) workload world = result at speaks
  cases speaks with
  | @all ready exchanged =>
      rcases answers_tell follows leaves steps ready with
        ⟨heard, said, tells, exchangedBehind⟩
      have isRecord : Session.Rigging.run watched settings world steps =
          { setUp := { result := .ok (), log := watch.log ready }
            answers :=
              Session.answers (Session.Rigging.take watched (rig settings bus workload))
                steps ready } := by
        simp only [Session.Rigging.run, Session.ending, watched, scene, setUp]
        rfl
      have isAfter : after =
          Session.Rigging.afterSteps watched (rig settings bus workload) steps ready :=
        Session.Rigging.afterRun_of_ok setUp steps
      rw [isRecord, isAfter]
      exact ⟨_, _, .through exchanged.carried tells, exchanged.trans exchangedBehind⟩
  | @cut part middle stopped isPart exchanged waits =>
      have isRecord : Session.Rigging.run watched settings world steps =
          { setUp := { result := .error .endlessWait, log := watch.log stopped },
            answers := [] } := by
        simp only [Session.Rigging.run, Session.ending, watched, scene, setUp]
        rfl
      have isAfter : after = stopped := Session.Rigging.afterRun_of_error setUp steps
      rw [isRecord, isAfter]
      exact ⟨_, _, .halted isPart exchanged.carried waits,
        exchanged.then_waits follows waits⟩

/-- Nothing is lost or invented on the serial line, however the registers answer. A read
with room for some bytes returns at least one and no more than that, and they are those
that it took from the line; or it waits without end and takes none. Over a whole run every
byte is received and sent when the status register allows it. What is sent is what is
printed and the packets in turn, and what is received decides which units are taken up. No
poll fails. -/
theorem serial_line_lossless (settings : Settings) (steps : List Session.Rigging.Step)
    (world : World) :
    (∀ slots before, 0 < slots →
      (∃ bytes after, Uart.read bus slots before = .ok bytes after ∧ 1 ≤ bytes.length ∧
        bytes.length ≤ slots ∧
          watch.Carries bytes [] before after) ∨
        (∃ after, Uart.read bus slots before = .error .endlessWait after ∧
          Waits bus nothingReceived before after ∧
          watch.Carries [] [] before after)) ∧
      let watched := scene watch bus workload
      let record := Session.Rigging.run watched settings world steps
      let after := Session.Rigging.afterRun watched settings steps world
      ∃ heard said, watch.Carries heard said world after ∧
        Recounts watch bus settings workload steps record heard said world after := by
  constructor
  · intro slots before positive
    rcases read_run follows positive before with
      ⟨bytes, after, read, nonempty, fits, exchanged⟩ | ⟨after, read, waits⟩
    · exact .inl ⟨bytes, after, read, nonempty, fits, exchanged.carried⟩
    · exact .inr ⟨after, read, waits, (waits.exchanges follows).carried⟩
  · rcases run_recounts follows leaves settings steps world with
      ⟨heard, said, recounts, exchanged⟩
    exact ⟨heard, said, exchanged.carried, recounts⟩

end SoftCore

/-! ## The simulated soft core -/

namespace Simulation.Core

open SoftCore

def looked (core : Core) : Core :=
  { core with statuses := core.nextStatus.2, looks := core.looks + 1 }.record
    (.status core.nextStatus.1 1)

private theorem readStatus_run (core : Core) :
    bus.readStatus core =
      if patience ≤ core.looks then .error .endlessWait core
        else .ok core.nextStatus.1 core.looked :=
  rfl

private theorem readStatus_of_ok {core after : Core} {status : UInt32}
    (ran : bus.readStatus core = .ok status after) :
    core.looks < patience ∧ status = core.nextStatus.1 ∧ after = core.looked := by
  rw [readStatus_run] at ran
  split at ran
  case isTrue => cases ran
  case isFalse few =>
      cases ran
      exact ⟨Nat.not_le.mp few, rfl, rfl⟩

private theorem lookTimes_bounded {times : Nat} {core after : Core}
    (ran : lookTimes bus times core = .ok () after) :
    times = 0 ∨ core.looks + times ≤ patience := by
  induction times generalizing core with
  | zero => exact .inl rfl
  | succ times induction =>
      rcases ok_of_bind ran with ⟨status, middle, isLooked, ranOn⟩
      rcases readStatus_of_ok isLooked with ⟨few, _, rfl⟩
      have bounded := induction ranOn
      simp only [looked, record] at bounded
      omega

private theorem supply_looked (core : Core) :
    bus.supply core.looked ≤ bus.supply core := by
  cases statuses : core.statuses with
  | nil => simp [bus, looked, record, nextStatus, statuses]
  | cons value rest => simp [bus, looked, record, nextStatus, statuses]

/-- A look that finds a byte either was prepared for it or found it among the arrivals. -/
theorem supply_received {core : Core}
    (clear : core.nextStatus.1 &&& nothingReceived = 0) :
    bus.supply (bus.readReceived core.looked).2 < bus.supply core := by
  cases statuses : core.statuses with
  | cons value rest =>
      simp only [bus, readReceived, looked, record, nextStatus, statuses,
        List.length_tail, List.length_cons]
      omega
  | nil =>
      cases arrivals : core.arrivals with
      | nil =>
          simp [nextStatus, statuses, arrivals, nothingReceived] at clear
      | cons value rest =>
          simp [bus, readReceived, looked, record, nextStatus, statuses, arrivals]

private theorem watch_follows : watch.Follows bus where
  looked ran := by
    rcases readStatus_of_ok ran with ⟨_, rfl, rfl⟩
    exact ⟨rfl, supply_looked _⟩
  endless {core _ _} ran := by
    rw [readStatus_run] at ran
    split at ran
    case isTrue =>
        cases ran
        exact ⟨rfl, (List.append_nil _).symm, Nat.le_refl _⟩
    case isFalse => cases ran
  received core := ⟨rfl, by simp [bus, readReceived, record]⟩
  transmitted _ _ := ⟨rfl, Nat.le_refl _⟩
  outputRead _ := ⟨rfl, Nat.le_refl _⟩
  outputWritten _ _ := ⟨rfl, Nat.le_refl _⟩
  patient core after ran := by
    have bounded := lookTimes_bounded ran
    simp only [bus] at bounded
    omega
  prompt core := ⟨_, _, rfl⟩
  spent ran clear := by
    rcases readStatus_of_ok ran with ⟨_, rfl, rfl⟩
    exact supply_received clear

private theorem watch_leaves : watch.Leaves bus execute := by
  intro core
  simp only [Session.ending, execute]
  rcases core.workload.execute with ⟨_ | _, workload⟩ <;> exact ⟨rfl, Nat.le_refl _⟩

/-- A soft core on which two run commands come in. There is noise above the bytes, and the
line is busy now and then. -/
def ofBusyLine : Core where
  arrivals := "141\n141\n".toList.map fun character =>
    character.toUInt8.toUInt32 ||| 0xABCDEF00
  statuses :=
    [0x2, 0x3, 0x1] ++ List.replicate 8 0x0 ++ [0x1, 0x3, 0x2, 0x1, 0x0, 0x0, 0x1]
  output := 0
  looks := 0
  workload := { executions := .ofFailures fun _ => false }
  log := []

theorem ofBusyLine_lossless :
    let watched := SoftCore.scene watch bus execute
    let steps : List Session.Rigging.Step := [.serveOne 2, .serve]
    let after := Session.Rigging.afterRun watched .usual steps ofBusyLine
    watch.Follows bus ∧ watch.Leaves bus execute ∧
      heardBytes after.log = "141\n141\n".toList.map Char.toUInt8 ∧
      transmittedValues after.log =
        ("Starting\nOK!z00\nOK!z00\n".toList.map Char.toUInt8).map UInt8.toUInt32 ∧
      ∃ heard said, watch.Carries heard said ofBusyLine after ∧
        Recounts watch bus .usual execute steps
          (Session.Rigging.run watched .usual ofBusyLine steps) heard said
          ofBusyLine after := by
  refine ⟨watch_follows, watch_leaves, ?_, ?_, ?_⟩
  · decide +kernel
  · decide +kernel
  · exact (serial_line_lossless watch_follows watch_leaves .usual [.serveOne 2,
      .serve] ofBusyLine).2

end Simulation.Core

end TriggerBench
