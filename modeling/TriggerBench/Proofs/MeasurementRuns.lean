import TriggerBench.Proofs.GaplessLines
import TriggerBench.Proofs.TruthfulStatuses

/-! # Runs of measurements

Where nothing fails, a rig makes one measurement for each run command that comes in,
whatever portions the line delivers the commands in. Each poll takes up one command and
nothing of the next one, so that in the end nothing is left over.
-/

namespace TriggerBench

open Simulation

variable {capacity : Nat}

namespace Simulation

/-! ## Devices that do not fail -/

def Schedule.Reliable (schedule : Schedule) : Prop :=
  ∀ call, schedule.fails call = false

theorem Schedule.Reliable.call {schedule : Schedule} (reliable : schedule.Reliable) :
    ∃ after : Schedule, schedule.call = (true, after) ∧ after.Reliable :=
  ⟨schedule.call.2, by simp only [Schedule.call, reliable schedule.calls,
    Bool.not_false], reliable⟩

namespace Display

def IsOpen (display : Display) : Prop :=
  display.throughWriter = false ∨ display.budget = none

theorem putAll_append (display : Display) (first second : List UInt8) :
    display.putAll (first ++ second) =
      ((display.putAll first).1 ++ ((display.putAll first).2.putAll second).1,
        ((display.putAll first).2.putAll second).2) := by
  induction first generalizing display with
  | nil => rfl
  | cons byte rest induction => simp only [List.cons_append, putAll, induction]

theorem IsOpen.put {display : Display} (isOpen : display.IsOpen) (byte : UInt8) :
    (display.put byte).1 = .shown [byte] ∧ (display.put byte).2.IsOpen := by
  rcases isOpen with direct | unlimited
  · simp [Display.put, direct, IsOpen]
  · have notFull : display.isFull = false := by simp [isFull, unlimited]
    unfold Display.put
    split
    · simp [notFull, IsOpen, unlimited]
    · simp [IsOpen, unlimited]

theorem IsOpen.putAll {display : Display} (isOpen : display.IsOpen)
    (message : List UInt8) :
    (display.putAll message).1 = message.map fun byte => .shown [byte] := by
  induction message generalizing display with
  | nil => rfl
  | cons byte rest induction =>
      rcases isOpen.put byte with ⟨shown, stillOpen⟩
      simp only [Display.putAll, List.map_cons, shown, induction stillOpen]

end Display

namespace Windows

variable {blocks more : List (List Event)} {events later : List Event}

theorem append (before : Windows blocks events) (behind : Windows more later) :
    Windows (blocks ++ more) (events ++ later) := by
  induction before with
  | nil => exact behind
  | aside outside _ induction => exact .aside outside induction
  | block isBlock _ induction =>
      rw [List.cons_append, List.append_assoc]
      exact .block isBlock induction

private theorem of_asides (outside : ∀ event ∈ events, event.isWindow = false) :
    Windows [] events := by
  have asides := Windows.nil.behind_asides outside
  rwa [List.append_nil] at asides

end Windows

namespace Bench

/-- A bench on which nothing fails but perhaps the display. -/
structure Flawless (bench : Bench Unit) : Prop where
  faultless : bench.line.Faultless
  gapless : bench.line.Gapless
  raises : bench.raising.Reliable
  lowers : bench.lowering.Reliable
  works : bench.workload.executions.Reliable

/-- A measurement that goes well from beginning to end. -/
theorem Flawless.measure {bench : Bench Unit} (flawless : bench.Flawless) (debug : Bool)
    (selection : List UInt8) :
    ∃ after, (Session.Measuring.measurement debug).measure selection bench =
        .ok .ok after ∧ after.Flawless ∧ after.line = bench.line ∧
      after.display = (bench.display.putAll (if debug then confirmation else [])).2 ∧
      after.log = bench.log ++ ([.high true, .executed, .low true] ++
        (bench.display.putAll (if debug then confirmation else [])).1) := by
  rcases flawless.raises.call with ⟨raising, raised, stillRaises⟩
  rcases flawless.lowers.call with ⟨lowering, lowered, stillLowers⟩
  rcases flawless.works.call with ⟨executions, executed, stillWorks⟩
  have completes : bench.workload.execute = (true, { executions }) := by
    simp only [Workload.execute, executed]
  have around := around_run bench
  simp only [raised, lowered, completes] at around
  let measured : Bench Unit :=
    { bench with raising, lowering, workload := { executions },
                 log := bench.log ++ [.high true, .executed, .low true] }
  refine ⟨measured.showing (if debug then confirmation else []), ?_, ?_, rfl, rfl,
    List.append_assoc ..⟩
  · simp only [Measurement.measure, Session.Measuring.measurement]
    rw [bind_of_ok around]
    simp only
    rw [bind_of_ok (print_run debug confirmation _)]
    rfl
  · exact ⟨flawless.faultless, flawless.gapless, stillRaises, stillLowers, stillWorks⟩

theorem Flawless.of_transmitted {bench after : Bench Unit} (flawless : bench.Flawless)
    {events : List Event} (transmitted : bench.Transmitted events after) :
    after.Flawless := by
  rcases transmitted.counted with ⟨_, _, _, rfl⟩
  exact ⟨flawless.faultless.congr rfl rfl,
    ⟨flawless.gapless.flows, flawless.gapless.holdsBytes⟩, flawless.raises,
    flawless.lowers, flawless.works⟩

theorem Flawless.of_readFrom {bench after : Bench Unit} (flawless : bench.Flawless)
    (read : ReadFrom bench.cleared after) (gapless : after.line.Gapless) :
    after.Flawless := by
  have faultless := read.faultless flawless.faultless
  rcases read with ⟨_, _, _, rfl⟩
  exact ⟨faultless, gapless, flawless.raises, flawless.lowers, flawless.works⟩

end Bench

end Simulation

/-! ## One poll -/

namespace Poll

variable {poll : Poll} {window shows : List Event}

theorem Consists.windows (consists : poll.Consists window shows) (isBlock : Block window)
    (areShows : ∀ event ∈ shows, event.isShow) : Windows [window] poll.log := by
  rcases consists with ⟨reads, sends, logged, areReads, areSends⟩
  have ofReads := Windows.of_asides fun event member =>
    Event.isWindow_of_isRead (areReads event member)
  have ofShows := Windows.of_asides fun event member =>
    Event.isWindow_of_isShow (areShows event member)
  have ofSends := Windows.of_asides fun event member =>
    Event.isWindow_of_isTransmission (areSends event member)
  have ofBlock := Windows.block isBlock ofShows
  rw [logged]
  exact (ofReads.append ofBlock).append ofSends

theorem Consists.shown (consists : poll.Consists window shows) (isBlock : Block window)
    (areShows : ∀ event ∈ shows, event.isShow) :
    poll.log.filter Event.isShow = shows := by
  rcases consists with ⟨reads, sends, logged, areReads, areSends⟩
  have ofReads : reads.filter Event.isShow = [] := by
    rw [List.filter_eq_nil_iff]
    intro event member
    have isRead := areReads event member
    cases event <;> simp [Event.isRead, Event.isShow] at isRead ⊢
  have ofWindow : window.filter Event.isShow = [] := by
    cases isBlock <;> rfl
  have ofSends : sends.filter Event.isShow = [] := by
    rw [List.filter_eq_nil_iff]
    intro event member
    have isTransmission := areSends event member
    cases event <;> simp [Event.isTransmission, Event.isShow] at isTransmission ⊢
  rw [logged]
  simp only [List.filter_append, ofReads, ofWindow, ofSends,
    List.filter_eq_self.mpr areShows, List.nil_append, List.append_nil]

end Poll

namespace Rig

def Commands (settings : Settings) (wire : List UInt8) : Prop :=
  ∃ frame : Frame, frame.Written settings.protocol wire ∧
    frame.command = settings.command ∧ frame.payload.length = settings.payloadLength

def successForm (settings : Settings) : List UInt8 :=
  (settings.protocol.outcomePackets (.handled settings.command Status.ok.code)).flatMap
    settings.protocol.form

example :
    [Protocol.v1_0, .v1_1, .v2_1].map (fun protocol =>
      successForm { Settings.usual with protocol }) =
    [[], "z00\n".toList.map Char.toUInt8, [0x03, 0x65, 0x01, 0x02, 0xEB, 0x00]] := by
  decide +kernel

def successMessage (settings : Settings) : List UInt8 :=
  if settings.debug then confirmation else []

structure Measures (settings : Settings) (count : Nat) (before : Bench Unit)
    (polls : List Poll) (after : Link capacity (Bench Unit)) : Prop where
  handled : polls.map Poll.result =
    List.replicate count (.ok (.handled settings.command Status.ok.code))
  windows : Windows (List.replicate count [.high true, .executed, .low true])
    (polls.flatMap Poll.log)
  shown : (polls.flatMap Poll.log).filter Event.isShow =
    (before.display.putAll (List.replicate count (successMessage settings)).flatten).1
  display : after.world.display =
    (before.display.putAll (List.replicate count (successMessage settings)).flatten).2
  acknowledged : acceptedBytes (polls.flatMap Poll.log) =
    (List.replicate count (successForm settings)).flatten
  endless : after.world.line.endless = before.line.endless
  wellFormed : after.staged.WellFormed
  flawless : after.world.Flawless

namespace Measures

variable {settings : Settings} {count more : Nat} {bench : Bench Unit}
  {polls others : List Poll} {middle after : Link capacity (Bench Unit)}

theorem append (before : Measures settings count bench polls middle)
    (behind : Measures settings more middle.world others after) :
    Measures settings (count + more) bench (polls ++ others) after := by
  have both : (List.replicate (count + more) (successMessage settings)).flatten =
      (List.replicate count (successMessage settings)).flatten ++
        (List.replicate more (successMessage settings)).flatten := by
    rw [List.replicate_add, List.flatten_append]
  have split :=
    bench.display.putAll_append (List.replicate count (successMessage settings)).flatten
      (List.replicate more (successMessage settings)).flatten
  have shownBehind := behind.shown
  have displayBehind := behind.display
  rw [before.display] at shownBehind displayBehind
  exact
    { handled := by rw [List.map_append, before.handled, behind.handled,
        List.replicate_add]
      windows := by
        rw [List.flatMap_append, List.replicate_add]
        exact before.windows.append behind.windows
      shown := by
        rw [List.flatMap_append, List.filter_append, before.shown,
          shownBehind, both, split]
      display := by rw [displayBehind, both, split]
      acknowledged := by
        rw [List.flatMap_append, acceptedBytes_append, before.acknowledged,
          behind.acknowledged, List.replicate_add, List.flatten_append]
      endless := behind.endless.trans before.endless
      wellFormed := behind.wellFormed
      flawless := behind.flawless }

theorem of_readFrom {start : Bench Unit}
    (measures : Measures settings count bench polls after)
    (read : Bench.ReadFrom start.cleared bench) :
    Measures settings count start polls after := by
  rcases read with ⟨_, _, _, rfl⟩
  exact { measures with }

end Measures

/-! ## One poll -/

private theorem answer_measures {settings : Settings}
    {middle : Link capacity (Bench Unit)} (wellFormed : middle.staged.WellFormed)
    (flawless : middle.world.Flawless)
    (onlyReads : ∀ event ∈ middle.world.log, event.isRead) {frame : Frame}
    (calls : (runCommand settings).Calls (.frame frame)) :
    let ended := Poll.ofResult Link.world
      (Link.worldComponent.lift
        ((runCommand settings).answer Bench.port (.frame frame)) middle)
    Measures settings 1 middle.world [ended.1] ended.2 ∧
      ended.2.toCome = middle.toCome := by
  have settles := settle_runCommand calls middle.world
  rcases flawless.measure settings.debug frame.payload.bytes with
    ⟨measured, isMeasured, stillFlawless, sameLine, isDisplay, isLog⟩
  simp only [isMeasured] at settles
  have areShows :=
    Bench.isShow_of_shown (middle.world.display.shows_putAll (successMessage settings))
  have silent : acceptedBytes measured.log = [] := by
    rw [isLog]
    exact acceptedBytes_of_silent (unsent_behind_reads onlyReads (.ran true) areShows)
  have short :=
    Protocol.outcomePackets_isShort settings.protocol
      (.handled settings.command Status.ok.code)
  rcases Responder.tells_afterSending
    (Bench.sendPackets_transmission (runCommand settings).protocol short measured) silent
    (.handled settings.command Status.ok.code) with ⟨tells, sends, transmitted, isPollLog⟩
  rw [Poll.ofResult_lift, Responder.answer_of_settled settles]
  generalize Poll.ofResult id
    (Responder.afterSending (.handled settings.command Status.ok.code) _) = ended
    at tells transmitted isPollLog ⊢
  have consists : ended.1.Consists [.high true, .executed, .low true]
      (middle.world.display.putAll (successMessage settings)).1 :=
    ⟨middle.world.log, sends, by rw [isPollLog, isLog]; rfl, onlyReads,
      transmitted.sending⟩
  have afterFlawless := stillFlawless.of_transmitted transmitted
  rcases tells.of_faultless stillFlawless.faultless with ⟨result, sent⟩
  rcases transmitted.counted with ⟨writes, accepted, count, isAfter⟩
  refine ⟨?_, by simp only [Link.toCome, Link.stream, Line.pending, isAfter, sameLine]⟩
  exact
    { handled := by rw [List.map_singleton, result]; rfl
      windows := by
        rw [List.flatMap_singleton]
        exact consists.windows (.ran true) areShows
      shown := by
        rw [List.flatMap_singleton, consists.shown (.ran true) areShows,
          List.replicate_one, List.flatten_singleton]
      display := by
        rw [List.replicate_one, List.flatten_singleton]
        simp only [isAfter, isDisplay]
        rfl
      acknowledged := by
        rw [List.flatMap_singleton, sent, List.replicate_one, List.flatten_singleton]
        rfl
      endless := by simp only [isAfter, sameLine]
      wellFormed
      flawless := afterFlawless }

private theorem poll_measures {settings : Settings} (positive : 0 < capacity)
    {link : Link capacity (Bench Unit)} (wellFormed : link.staged.WellFormed)
    (flawless : link.world.Flawless) {wire rest : List UInt8}
    (commands : Commands settings wire) (fits : wire.length ≤ capacity)
    (comes : link.toCome = wire ++ rest) :
    let polled := (runCommand settings).poll link
    Measures settings 1 link.world [polled.1] polled.2 ∧ polled.2.toCome = rest := by
  rcases commands with ⟨frame, written, isCommand, isLength⟩
  have found := @find?_runResponder _ (onBench settings) _ isCommand
  have expected : (runCommand settings).Expects frame :=
    Responder.expects_of_found found isLength.symm
  rcases Responder.poll_of_written positive wellFormed flawless.gapless written expected
    fits comes with ⟨middle, polled, stillWellFormed, left, read, stillGapless⟩
  rcases answer_measures stillWellFormed (flawless.of_readFrom read stillGapless)
    read.onlyReads ⟨frame, _, rfl, found, isLength.symm⟩ with ⟨measures, sameToCome⟩
  simp only [polled]
  exact ⟨measures.of_readFrom read, sameToCome.trans left⟩

/-! ## Runs -/

private theorem polls_measure {settings : Settings} {link : Connection (Bench Unit)}
    (wellFormed : link.staged.WellFormed) (flawless : link.world.Flawless)
    {wires : List (List UInt8)} (commands : ∀ wire ∈ wires, Commands settings wire)
    (comes : link.toCome = wires.flatten) :
    let run := (runCommand settings).polls wires.length link
    Measures settings wires.length link.world run.1 run.2 ∧ run.2.toCome = [] := by
  induction wires generalizing link with
  | nil =>
      refine ⟨?_, comes⟩
      exact
        { handled := rfl
          windows := .nil
          shown := rfl
          display := rfl
          acknowledged := rfl
          endless := rfl
          wellFormed
          flawless }
  | cons wire wires induction =>
      rw [List.forall_mem_cons] at commands
      rcases commands with ⟨isCommand, areCommands⟩
      have fits : wire.length ≤ frameCapacity := by
        rcases isCommand with ⟨frame, written, _⟩
        exact written.length_le
      rw [List.flatten_cons] at comes
      rcases poll_measures (by decide) wellFormed flawless isCommand fits comes with
        ⟨first, left⟩
      rcases induction first.wellFormed first.flawless areCommands left with
        ⟨later, nothingLeft⟩
      have both := first.append later
      rw [Nat.add_comm] at both
      exact ⟨both, nothingLeft⟩

/-- What setting up leaves behind before the first command: a bench that has shown the
banner, and nothing else. -/
theorem setUp_opens (settings : Settings) {bench : Bench Unit}
    (flawless : bench.Flawless) :
    let message := if settings.debug then banner else []
    ∃ ready opening, Rig.setUp settings Bench.board Bench.execute bench =
        .ok (onBench settings) ready ∧
      ready.log = bench.log ++ opening ∧ ready.Flawless ∧ ready.line = bench.line ∧
      ready.display = (bench.display.putAll message).2 ∧ Windows [] opening ∧
      opening.filter Event.isShow = (bench.display.putAll message).1 ∧
      acceptedBytes opening = [] := by
  intro message
  let opening :=
    [.platformPrepared, .serialStarted, .triggerSetUp] ++ (bench.display.putAll message).1
  let ready : Bench Unit :=
    { bench with display := (bench.display.putAll message).2,
                 log := bench.log ++ opening }
  have isReady : Rig.setUp settings Bench.board Bench.execute bench =
      .ok (onBench settings) ready := by
    rw [setUp_run]
    simp only [ready, opening, ← List.append_assoc]
    rfl
  have readyFlawless : ready.Flawless :=
    ⟨flawless.faultless, flawless.gapless, flawless.raises,
      flawless.lowers, flawless.works⟩
  have areShows := Bench.isShow_of_shown (bench.display.shows_putAll message)
  refine ⟨ready, opening, isReady, rfl, readyFlawless, rfl, rfl, .of_asides ?_, ?_,
    acceptedBytes_of_silent ?_⟩
  · refine List.forall_mem_append.mpr ⟨by simp [Event.isWindow], fun event member => ?_⟩
    exact Event.isWindow_of_isShow (areShows event member)
  · rw [List.filter_append, List.filter_eq_self.mpr areShows]
    rfl
  · refine List.forall_mem_append.mpr ⟨by simp [Event.isTransmission],
      fun event member => ?_⟩
    have isShow := areShows event member
    cases event <;> simp [Event.isShow, Event.isTransmission] at isShow ⊢

def messages (settings : Settings) (count : Nat) : List UInt8 :=
  if settings.debug then banner ++ (List.replicate count confirmation).flatten else []

/-- What comes of a number of run commands, from the events of setting up through those of
the poll for the last command. -/
structure MeasuresEach (settings : Settings) (bench : Bench Unit) (count : Nat)
    (opening : List Event) (polls : List Poll)
    (final : Connection (Bench Unit)) : Prop where
  handled : polls.map Poll.result =
    List.replicate count (.ok (.handled settings.command Status.ok.code))
  /-- The trigger line is raised, the workload runs and the line is lowered, once for each
  command and never else. -/
  windows : Windows (List.replicate count [.high true, .executed, .low true])
    (opening ++ polls.flatMap Poll.log)
  /-- The console is given the banner and then the confirmations. -/
  shown : (opening ++ polls.flatMap Poll.log).filter Event.isShow =
    (bench.display.putAll (messages settings count)).1
  allShown : bench.display.IsOpen →
    (opening ++ polls.flatMap Poll.log).filter Event.isShow =
      (messages settings count).map fun byte => .shown [byte]
  /-- The host is told of each measurement and of nothing else. -/
  acknowledged : acceptedBytes (opening ++ polls.flatMap Poll.log) =
    (List.replicate count (successForm settings)).flatten
  nothingLeft : final.toCome = []

/-- As many run commands as come in, so many measurements are made, and then there is
nothing left to poll. -/
theorem runs_measure_each {settings : Settings}
    (fits : settings.payloadLength ≤ maxPayload) {bench : Bench Unit}
    (flawless : bench.Flawless) {wires : List (List UInt8)}
    (commands : ∀ wire ∈ wires, Commands settings wire)
    (arrive : bench.line.pending = wires.flatten) :
    ∃ ready opening responder,
      Rig.setUp settings Bench.board Bench.execute bench = .ok (onBench settings) ready ∧
        ready.log = bench.log ++ opening ∧ (onBench settings).responder = .ok responder ∧
        let run :=
          responder.polls wires.length (Link.fresh ready : Connection (Bench Unit))
        MeasuresEach settings bench wires.length opening run.1 run.2 ∧
          (responder.poll run.2).1.result =
            .error (if bench.line.endless then .stopped .endlessWait
              else .failed .endOfStream) ∧ (responder.poll run.2).2.toCome = [] := by
  rcases setUp_opens settings flawless with
    ⟨ready, opening, isReady, logged, readyFlawless, sameLine, isDisplay, openingWindows,
      openingShown, openingSilent⟩
  have startWellFormed : (Link.fresh ready : Connection (Bench Unit)).staged.WellFormed :=
    StagingBuffer.wellFormed_empty
  have comes : (Link.fresh ready : Connection (Bench Unit)).toCome = wires.flatten := by
    rw [← arrive, ← sameLine]
    exact congrArg (· ++ ready.line.pending) (StagingBuffer.toList_of_size_eq_zero rfl)
  rcases polls_measure startWellFormed readyFlawless commands comes with
    ⟨measures, nothingLeft⟩
  rcases Responder.poll_of_nothing (runCommand settings) (by decide) measures.wellFormed
    measures.flawless.gapless nothingLeft with ⟨ends, stillNothing⟩
  rw [measures.endless, show (Link.fresh ready : Connection (Bench Unit)).world.line =
    bench.line from sameLine] at ends
  have inTurn : (if settings.debug then banner else []) ++
      (List.replicate wires.length (successMessage settings)).flatten =
        messages settings wires.length := by
    cases debug : settings.debug <;> simp [messages, successMessage, debug]
  let run :=
    (runCommand settings).polls wires.length (Link.fresh ready : Connection (Bench Unit))
  have shown : (opening ++ run.1.flatMap Poll.log).filter Event.isShow =
      (bench.display.putAll (messages settings wires.length)).1 := by
    rw [List.filter_append, openingShown, measures.shown, ← inTurn,
      Display.putAll_append, ← isDisplay]
    rfl
  refine ⟨ready, opening, runCommand settings, isReady, logged, responder_of_fits fits,
    ?_, ends, stillNothing⟩
  exact
    { handled := measures.handled
      windows := openingWindows.append measures.windows
      shown
      allShown := fun isOpen => shown.trans (isOpen.putAll _)
      acknowledged := by
        rw [acceptedBytes_append, openingSilent, measures.acknowledged, List.nil_append]
      nothingLeft }

/-- Two run commands arrive in four portions, the second one in capital and small
digits. -/
def scatteredCommands : Bench Unit :=
  { Bench.plain with
    line :=
      { Bench.plain.line with
        deliveries := ["14", "1\n1f", "F", "\r"].map fun portion =>
          .bytes (portion.toList.map Char.toUInt8)
        readLimit := some 2 } }

theorem scatteredCommands_measured :
    let wires := ["141\n", "1fF\r"].map fun wire => wire.toList.map Char.toUInt8
    Settings.usual.payloadLength ≤ maxPayload ∧ scatteredCommands.Flawless ∧
      (∀ wire ∈ wires, Commands .usual wire) ∧
      scatteredCommands.line.pending = wires.flatten ∧
      ∃ ready opening responder,
        Rig.setUp .usual Bench.board Bench.execute scatteredCommands =
          .ok (onBench .usual) ready ∧
          ready.log = scatteredCommands.log ++ opening ∧
          (onBench .usual).responder = .ok responder ∧
          let run := responder.polls 2 (Link.fresh ready : Connection (Bench Unit))
          MeasuresEach .usual scatteredCommands 2 opening run.1 run.2 ∧
            (responder.poll run.2).1.result = .error (.failed .endOfStream) ∧
            (responder.poll run.2).2.toCome = [] := by
  intro wires
  have fits : Settings.usual.payloadLength ≤ maxPayload := by decide
  have flawless : scatteredCommands.Flawless :=
    { faultless := Bench.plain_faultless.congr rfl rfl
      gapless := ⟨by simp [Line.Flows, scatteredCommands], by decide⟩
      raises := fun _ => rfl
      lowers := fun _ => rfl
      works := fun _ => rfl }
  have commands : ∀ wire ∈ wires, Commands .usual wire := by
    have first : Commands .usual ("141\n".toList.map Char.toUInt8) :=
      ⟨{ command := 0x31, subcommand := 0, payload := ⟨[0x41], by decide⟩ },
        @Frame.Written.line _ _ [0x34, 0x31] 0x0A rfl rfl (by decide)
          (.inl rfl), rfl, rfl⟩
    have second : Commands .usual ("1fF\r".toList.map Char.toUInt8) :=
      ⟨{ command := 0x31, subcommand := 0, payload := ⟨[0xFF], by decide⟩ },
        @Frame.Written.line _ _ [0x66, 0x46] 0x0D rfl rfl (by decide)
          (.inr rfl), rfl, rfl⟩
    simpa [wires] using And.intro first second
  have arrive : scatteredCommands.line.pending = wires.flatten := by decide
  exact ⟨fits, flawless, commands, arrive,
    runs_measure_each fits flawless commands arrive⟩

end Rig

end TriggerBench
