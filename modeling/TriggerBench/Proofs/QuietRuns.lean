import TriggerBench.Proofs.TruthfulStatuses

/-! # Runs with the console taken away

A run of a rig on a bench is held against the run of a rig that prints nothing, on the
same bench with a console that nobody uses. What the two do is the same but for what is
shown. So whether messages are printed, and what becomes of them, makes no difference to
the measurements, to what the host is told, or to what is left for later.
-/

namespace TriggerBench

variable {Reason State Result Next : Type}

/-! ## Doing in a changed state what is done before the change -/

namespace Mirrors

variable {change : State → State}

theorem lift {capacity : Nat} {mirror activity : EStateM Reason State Result}
    (mirrors : Mirrors change mirror activity) :
    Mirrors (Link.mapWorld change : Link capacity State →
      _) (Link.worldComponent.lift mirror) (Link.worldComponent.lift activity) := by
  intro link
  have inWorld : mirror (Link.mapWorld change link).world = _ := mirrors link.world
  simp only [Component.lift, Link.worldComponent, inWorld]
  cases activity link.world <;> rfl

theorem ending {mirror activity : EStateM Reason State Result}
    (mirrors : Mirrors change mirror activity) (state : State) :
    Session.ending mirror (change state) =
      ((Session.ending activity state).1, change (Session.ending activity state).2) := by
  simp only [Session.ending, mirrors state]
  cases activity state <;> rfl

end Mirrors

/-! ## Logs without what was shown -/

namespace Simulation

namespace Log

variable {Event : Type} {join? : Event → Event → Option Event}

structure Joins (join? : Event → Event → Option Event) (keep : Event → Bool) : Prop where
  assoc : ∀ {first second both}, join? first second = some both →
    ∀ third, join? both third = (join? second third).bind (join? first)
  joins : ∀ {first second both} third, join? first second = some both →
    (join? second third).isSome → (join? both third).isSome
  keeps : ∀ {first second both}, join? first second = some both → keep first = keep both ∧
    keep second = keep both

variable {keep : Event → Bool} (joins : Joins join? keep)
include joins

private theorem joinTo_joinTo {first second both : Event}
    (isBoth : join? first second = some both) (log : List Event) :
    joinTo join? first (joinTo join? second log) = joinTo join? both log := by
  cases log with
  | nil => simp only [joinTo, isBoth]
  | cons third later =>
      have assoc := joins.assoc isBoth third
      have alsoJoins := joins.joins third isBoth
      cases joined : join? second third with
      | none =>
          rw [joined, Option.bind_none] at assoc
          simp only [joinTo, joined, isBoth, assoc]
      | some behind =>
          rw [joined] at assoc alsoJoins
          rw [Option.bind_some] at assoc
          rcases Option.isSome_iff_exists.mp (alsoJoins rfl) with ⟨all, isAll⟩
          simp only [joinTo, joined, isAll, ← assoc]

/-- Joining before entries are left out makes no difference once what is left is
joined. -/
theorem joined_filter_joined (log : List Event) :
    joined join? ((joined join? log).filter keep) = joined join? (log.filter keep) := by
  induction log with
  | nil => rfl
  | cons event log induction =>
      change joined join? ((joinTo join? event (joined join? log)).filter keep) = _
      rw [List.filter_cons]
      generalize joined join? log = behind at induction ⊢
      have apart : joined join? ((event :: behind).filter keep) =
          joined join? (if keep event then event :: log.filter keep
            else log.filter keep) := by
        rw [List.filter_cons]
        split
        · exact congrArg (joinTo join? event) induction
        · exact induction
      cases behind with
      | nil => exact apart
      | cons next later =>
          cases isBoth : join? event next with
          | none =>
              simp only [joinTo, isBoth]
              exact apart
          | some both =>
              rcases joins.keeps isBoth with ⟨keptFirst, keptNext⟩
              simp only [joinTo, isBoth]
              rw [← apart, List.filter_cons, List.filter_cons, List.filter_cons,
                keptFirst, keptNext]
              split
              · exact (joinTo_joinTo joins isBoth _).symm
              · rfl

end Log

namespace Event

def isUnshown (event : Event) : Bool :=
  !event.isShow

private theorem joins_isUnshown : Log.Joins join? isUnshown where
  assoc {first second both} isBoth third := by
    cases first <;> cases second <;>
      simp only [join?, Option.some.injEq, reduceCtorEq] at isBoth
    all_goals
      subst isBoth
      cases third <;> simp [join?]
  joins {first second both} third isBoth := by
    cases first <;> cases second <;>
      simp only [join?, Option.some.injEq, reduceCtorEq] at isBoth
    all_goals
      subst isBoth
      cases third <;> simp [join?]
  keeps {first second both} isBoth := by
    cases first <;> cases second <;>
      simp only [join?, Option.some.injEq, reduceCtorEq] at isBoth
    all_goals
      subst isBoth
      exact ⟨rfl, rfl⟩

end Event

namespace Bench

variable {Memory : Type}

def quiet (bench : Bench Memory) : Bench Memory :=
  { bench with
    display := { throughWriter := false, budget := none, accepted := 0 }
    log := bench.log.filter Event.isUnshown }

private theorem quiet_record (bench : Bench Memory) {event : Event}
    (unshown : event.isUnshown = true) :
    (bench.record event).quiet = bench.quiet.record event := by
  simp [quiet, record, unshown]

private theorem port_readsThrough_quiet :
    (port : Port (Bench Memory)).ReadsThrough quiet where
  read wanted bench := by
    have sameLine : bench.quiet.line = bench.line := rfl
    simp only [port, readLine, sameLine]
    rcases bench.line.read wanted with ⟨_ | _ | _, line⟩
    · exact congrArg _ (quiet_record { bench with line } rfl).symm
    · exact congrArg _ (quiet_record { bench with line } rfl).symm
    · rfl
  supply _ := rfl

private theorem port_sendsThrough_quiet :
    (port : Port (Bench Memory)).Sends (Commutes quiet) where
  write bytes bench := by
    have sameLine : bench.quiet.line = bench.line := rfl
    simp only [port, writeLine, sameLine]
    rcases bench.line.write bytes with ⟨_ | _, line⟩
    · exact congrArg _ (quiet_record { bench with line } rfl).symm
    · exact congrArg _ (quiet_record { bench with line } rfl).symm
  flush bench := by
    have sameLine : bench.quiet.line = bench.line := rfl
    simp only [port, flushLine, sameLine]
    exact congrArg _ (quiet_record { bench with line := bench.line.flush.2 } rfl).symm

private theorem quiet_showing (message : List UInt8) (bench : Bench Unit) :
    (bench.showing message).quiet = bench.quiet := by
  have leftOut : (bench.display.putAll message).1.filter Event.isUnshown = [] := by
    rw [List.filter_eq_nil_iff]
    intro event member
    simp [Event.isUnshown,
      isShow_of_shown (bench.display.shows_putAll message) event member]
  simp [quiet, showing, leftOut]

private theorem around_commutes_quiet :
    Commutes quiet (pin.around execute : Action (Bench Unit) Window) := by
  intro bench
  rw [around_run, around_run]
  simp only [quiet]
  rcases bench.raising.call with ⟨_ | _, raising⟩
  · simp [changed, quiet, Event.isUnshown, Event.isShow]
  · rcases bench.workload.execute with ⟨_ | _, workload⟩
    · simp [changed, quiet, Event.isUnshown, Event.isShow]
    · simp [changed, quiet, Event.isUnshown, Event.isShow]

private theorem print_mirrors (debug : Bool) (message : List UInt8) :
    Mirrors quiet (pure ()) (Printer.print { console, enabled := debug } message : Action
      (Bench Unit) Unit) := by
  intro bench
  rw [print_run]
  exact congrArg (EStateM.Result.ok ()) (quiet_showing _ bench).symm

private theorem measure_mirrors (debug : Bool) (selection : List UInt8) :
    Mirrors quiet ((Session.Measuring.measurement false).measure selection)
      ((Session.Measuring.measurement debug).measure selection) := by
  apply Mirrors.bind around_commutes_quiet
  intro window
  match window with
  | .closed true =>
      exact .bind (print_mirrors debug confirmation) fun _ => Commutes.pure _
  | .closed false => exact Commutes.pure _
  | .refused => exact Commutes.pure _
  | .abandoned => exact Commutes.pure _

end Bench

end Simulation

open Simulation

/-! ## Rigs that print nothing -/

namespace Settings

def silenced (settings : Settings) : Settings :=
  { settings with debug := false }

end Settings

namespace Rig

variable (settings : Settings)

private theorem examine_silenced (bytes : List UInt8) :
    (runCommand settings.silenced).examine bytes =
      (runCommand settings).examine bytes := by
  have sameLengths : (runCommand settings.silenced).expectedLength =
      (runCommand settings).expectedLength :=
    (onBench settings.silenced).expectedLength_runResponder.trans
      (onBench settings).expectedLength_runResponder.symm
  simp only [Responder.examine, sameLengths]
  rfl

private theorem settle_mirrors (received : Received) :
    Mirrors Bench.quiet ((runCommand settings.silenced).settle received)
      ((runCommand settings).settle received) := by
  cases received with
  | dropped reason => exact Commutes.pure _
  | frame frame =>
      cases isCommand : settings.command == frame.command with
      | false =>
          simp only [Responder.settle, CommandTable.find?, runCommand, runResponder,
            onBench, Settings.silenced, List.find?_cons, isCommand, List.find?_nil,
            Bool.false_and, Bool.false_eq_true, if_false]
          exact Commutes.pure _
      | true =>
          simp only [Responder.settle, CommandTable.find?, runCommand, runResponder,
            onBench, Settings.silenced, List.find?_cons, isCommand]
          split
          · exact Commutes.pure _
          · refine .bind (.ofAction ?_) fun _ => Commutes.pure _
            exact .bind (Bench.measure_mirrors settings.debug _) fun _ => Commutes.pure _

private theorem serveOne_mirrors :
    Mirrors (Link.mapWorld Bench.quiet : Connection (Bench Unit) → _)
      ((runCommand settings.silenced).serveOne Bench.port)
        ((runCommand settings).serveOne Bench.port) := by
  apply Mirrors.bind
  · intro link
    rw [Responder.receive_congr (examine_silenced settings)]
    exact Responder.receive_commutes Bench.port_readsThrough_quiet link
  · intro received
    simp only [Responder.answer_eq]
    exact .lift (.bind (settle_mirrors settings received) fun settled =>
      .bind ((Commutes.compositional _).sendPackets Bench.port_sendsThrough_quiet _
        settled.1) fun _ => Commutes.pure _)

private theorem serveWithin_mirrors (frames : Nat) (link : Connection (Bench Unit)) :
    (runCommand settings.silenced).serveWithin Bench.port frames
      (link.mapWorld Bench.quiet) =
      (((runCommand settings).serveWithin Bench.port frames link).1,
        ((runCommand settings).serveWithin Bench.port frames link).2.mapWorld
          Bench.quiet) := by
  induction frames generalizing link with
  | zero => rfl
  | succ frames induction =>
      rw [Responder.serveWithin, Responder.serveWithin, serveOne_mirrors settings link]
      rcases (runCommand settings).serveOne Bench.port link with
        ⟨outcome, after⟩ | ⟨_ | stop, after⟩
      · exact induction after
      · exact induction after
      · rfl

private theorem serve_mirrors :
    Mirrors Bench.quiet (onBench settings.silenced).serve (onBench settings).serve := by
  intro bench
  simp only [Rig.serve]
  rcases Nat.lt_or_ge maxPayload settings.payloadLength with long | fits
  · have longSilenced : maxPayload < settings.silenced.payloadLength := long
    rw [responder_of_long long, responder_of_long longSilenced]
    rfl
  · have fitsSilenced : settings.silenced.payloadLength ≤ maxPayload := fits
    rw [responder_of_fits fits, responder_of_fits fitsSilenced]
    simp only [Responder.serve]
    have served :=
      serveWithin_mirrors settings
        ((Link.fresh bench : Connection (Bench Unit)).staged.size +
          Bench.port.supply bench + 1) (Link.fresh bench)
    exact congrArg (fun ending : Stop × Connection (Bench Unit) =>
      (EStateM.Result.error ending.1 ending.2.world : EStateM.Result Stop (Bench Unit)
        RegistrationError)) served

private theorem measureOnce_mirrors :
    Mirrors Bench.quiet (onBench settings.silenced).measureOnce
      (onBench settings).measureOnce :=
  Bench.measure_mirrors settings.debug [settings.sentinel]

private theorem run_mirrors :
    Mirrors Bench.quiet (onBench settings.silenced).run (onBench settings).run := by
  have sameMode : (onBench settings.silenced).mode = (onBench settings).mode := rfl
  simp only [Rig.run, sameMode]
  cases (onBench settings).mode with
  | singleShot => exact .bind (measureOnce_mirrors settings) fun _ => Commutes.pure _
  | serialLoop => exact .bind (serve_mirrors settings) fun _ => Commutes.pure _

end Rig

/-! ## Sessions without what was shown -/

namespace Session

/-- A result, and its log without what was shown. Bytes that were sent apart because
something was shown in between are one entry again. -/
def Logged.unshown (logged : Logged Event Result) : Logged Event Result where
  result := logged.result
  log := Log.joined Event.join? (logged.log.filter Event.isUnshown)

private theorem report_quiet (result : Result) (bench : Bench Unit) :
    report Bench.drain result bench.quiet =
      ((report Bench.drain result bench).1.unshown,
        (report Bench.drain result bench).2.quiet) := by
  have joined := Log.joined_filter_joined Event.joins_isUnshown bench.log
  simp only [report, Bench.drain, Logged.unshown, joined]
  rfl

private theorem observe_quiet {mirror activity : EStateM Reason (Bench Unit) Result}
    (mirrors : Mirrors Bench.quiet mirror activity) (bench : Bench Unit) :
    observe Bench.drain mirror bench.quiet =
      ((observe Bench.drain activity bench).1.unshown,
        (observe Bench.drain activity bench).2.quiet) := by
  simp only [observe, mirrors.ending bench]
  exact report_quiet _ _

namespace Rigging

private theorem drainConnection_quiet (result : Result)
    (link : Rig.Connection (Bench Unit)) :
    report (drainConnection benchScene) result (link.mapWorld Bench.quiet) =
      ((report (drainConnection benchScene) result link).1.unshown,
        (report (drainConnection benchScene) result link).2.mapWorld Bench.quiet) := by
  have reported := report_quiet result link.world
  exact congrArg (fun reported : Logged Event Result × Bench Unit =>
    (reported.1, { link with world := reported.2 })) reported

private theorem observeTimes_quiet
    {mirror activity : Activity (Rig.Connection (Bench Unit)) Result}
    (mirrors : Mirrors (Link.mapWorld Bench.quiet) mirror activity) (times : Nat)
    (link : Rig.Connection (Bench Unit)) :
    observeTimes (drainConnection benchScene) mirror times (link.mapWorld Bench.quiet) =
      ((observeTimes (drainConnection benchScene) activity times link).1.map
        Logged.unshown,
        (observeTimes (drainConnection benchScene) activity times link).2.mapWorld
          Bench.quiet) := by
  induction times generalizing link with
  | zero => rfl
  | succ times induction =>
      simp only [observeTimes, observe, mirrors.ending link, drainConnection_quiet,
        induction, List.map_cons]

private theorem observeEndless_quiet {mirror action : Action (Bench Unit) Result}
    (mirrors : Mirrors Bench.quiet mirror action) (bench : Bench Unit) :
    observeEndless benchScene mirror bench.quiet =
      ((observeEndless benchScene action bench).1.unshown,
        (observeEndless benchScene action bench).2.quiet) := by
  have ended : ending mirror (benchScene.setEndless true bench.quiet) = _ :=
    mirrors.ending (benchScene.setEndless true bench)
  simp only [observeEndless, ended]
  exact report_quiet _
    (benchScene.setEndless false (ending action (benchScene.setEndless true bench)).2)

def Answer.unshown : Answer Event → Answer Event
  | .mode current => .mode current
  | .settings current => .settings current.silenced
  | .done => .done
  | .measured status => .measured status.unshown
  | .ran result => .ran result.unshown
  | .served outcomes => .served (outcomes.map Logged.unshown)
  | .refused error => .refused error.unshown
  | .stopped result => .stopped result.unshown

def Record.unshown (record : Record Event) : Record Event where
  setUp := record.setUp.unshown
  answers := record.answers.map Answer.unshown

private theorem take_quiet (settings : Settings) (step : Step) (bench : Bench Unit) :
    take benchScene (Rig.onBench settings.silenced) step bench.quiet =
      ((take benchScene (Rig.onBench settings) step bench).1.unshown,
        (take benchScene (Rig.onBench settings) step bench).2.quiet) := by
  cases step with
  | mode => rfl
  | settings => rfl
  | feed deliveries => rfl
  | measureOnce =>
      have observed := observe_quiet (Rig.measureOnce_mirrors settings) bench
      exact congrArg (Prod.map Answer.measured id) observed
  | run =>
      have observed := observeEndless_quiet (Rig.run_mirrors settings) bench
      exact congrArg (Prod.map Answer.ran id) observed
  | serve =>
      have observed := observeEndless_quiet (Rig.serve_mirrors settings) bench
      exact congrArg (Prod.map Answer.stopped id) observed
  | serveOne times =>
      simp only [take]
      rcases Nat.lt_or_ge maxPayload settings.payloadLength with long | fits
      · have longSilenced : maxPayload < settings.silenced.payloadLength := long
        rw [Rig.responder_of_long long, Rig.responder_of_long longSilenced]
        exact congrArg (Prod.map Answer.refused id)
          (report_quiet RegistrationError.payloadTooLong bench)
      · have fitsSilenced : settings.silenced.payloadLength ≤ maxPayload := fits
        rw [Rig.responder_of_fits fits, Rig.responder_of_fits fitsSilenced]
        have observed :=
          observeTimes_quiet (Rig.serveOne_mirrors settings) times (.fresh bench)
        exact congrArg (Prod.map Answer.served Link.world) observed

private theorem answers_quiet (settings : Settings) (steps : List Step)
    (bench : Bench Unit) :
    Session.answers (take benchScene (Rig.onBench settings.silenced)) steps bench.quiet =
      (Session.answers (take benchScene (Rig.onBench settings)) steps bench).map
        Answer.unshown := by
  induction steps generalizing bench with
  | nil => rfl
  | cons step steps induction =>
      simp only [Session.answers, take_quiet, induction, List.map_cons]

private theorem setUp_quiet (settings : Settings) (bench : Bench Unit) :
    ∃ ready,
      Rig.setUp settings Bench.board Bench.execute bench =
        .ok (Rig.onBench settings) ready ∧
        Rig.setUp settings.silenced Bench.board Bench.execute bench.quiet =
          .ok (Rig.onBench settings.silenced) ready.quiet := by
  refine ⟨_, Rig.setUp_run settings bench, ?_⟩
  rw [Rig.setUp_run, Bench.quiet_showing]
  have nothing : (if settings.silenced.debug then banner else []) = [] := rfl
  rw [nothing, Bench.showing_nil]
  simp [Bench.quiet, Event.isUnshown, Event.isShow]

/-- The run of a rig that prints nothing is any other run without what was shown. -/
theorem run_quiet (settings : Settings) (bench : Bench Unit) (steps : List Step) :
    run benchScene settings.silenced bench.quiet steps =
      (run benchScene settings bench steps).unshown := by
  rcases setUp_quiet settings bench with ⟨ready, isReady, isQuiet⟩
  have ended : ending (Rig.setUp settings benchScene.board benchScene.workload) bench =
      (.ok (Rig.onBench settings), ready) := by
    simp only [ending, benchScene, isReady]
  have quietEnded : ending
      (Rig.setUp settings.silenced benchScene.board benchScene.workload) bench.quiet =
      (.ok (Rig.onBench settings.silenced), ready.quiet) := by
    simp only [ending, benchScene, isQuiet]
  have reported : report benchScene.drain (.ok () : Except Stop Unit) ready.quiet = _ :=
    report_quiet _ ready
  simp only [run, ended, quietEnded, reported, answers_quiet]
  rfl

/-- Whether messages are printed, and on what kind of console, is all the same for the
results of a session and for its logs without what was shown. -/
theorem run_regardless_of_console (settings : Settings) (bench : Bench Unit)
    (steps : List Step) (debug otherDebug : Bool) (display otherDisplay : Display) :
    (run benchScene { settings with debug } { bench with display } steps).unshown =
      (run benchScene { settings with debug := otherDebug } { bench with
        display := otherDisplay } steps).unshown :=
  (run_quiet { settings with debug } { bench with display } steps).symm.trans
    (run_quiet { settings with debug := otherDebug } { bench with
      display := otherDisplay } steps)

end Rigging

end Session

end TriggerBench
