import Mathlib.Data.List.Forall2
import TriggerBench.Proofs.Answering
import TriggerBench.Proofs.Footprints
import TriggerBench.Session.Measuring

/-! # Windows of measurement

On a bench, a measurement raises the trigger line and lowers it again, and has the
workload run in between unless the line could not be raised. These events stand next to
each other in the log, whatever else a rig is asked to do and whatever fails.
-/

namespace TriggerBench

open Simulation

variable {capacity : Nat}

namespace Simulation

namespace Event

def isWindow : Event → Bool
  | high _ | low _ | executed => true
  | _ => false

def isShow : Event → Bool
  | shown _ | showFailed => true
  | _ => false

inductive Shows (byte : UInt8) : Event → Prop
  | done : Shows byte (.shown [byte])
  | failed : Shows byte .showFailed

theorem Shows.isShow {byte : UInt8} {event : Event} (shows : Shows byte event) :
    event.isShow = true := by
  cases shows <;> rfl

theorem isWindow_of_isShow {event : Event} (isShow : event.isShow = true) :
    event.isWindow = false := by
  cases event <;> simp [Event.isShow, isWindow] at isShow ⊢

theorem isWindow_of_isRead {event : Event} (isRead : event.isRead = true) :
    event.isWindow = false := by
  cases event <;> simp [Event.isRead, isWindow] at isRead ⊢

theorem isWindow_of_isTransmission {event : Event}
    (isTransmission : event.isTransmission = true) :
    event.isWindow = false := by
  cases event <;> simp [Event.isTransmission, isWindow] at isTransmission ⊢

end Event

inductive Block : List Event → Prop
  | refused (lowered : Bool) : Block [.high false, .low lowered]
  | ran (lowered : Bool) : Block [.high true, .executed, .low lowered]

/-- Events that make up whole blocks, one after the other, with other events before,
between and behind them. -/
inductive Windows : List (List Event) → List Event → Prop
  | nil : Windows [] []
  | aside {event blocks later} (outside : event.isWindow = false)
      (behind : Windows blocks later) :
      Windows blocks (event :: later)
  | block {block blocks later} (isBlock : Block block) (behind : Windows blocks later) :
      Windows (block :: blocks) (block ++ later)

theorem Block.all_isWindow {block : List Event} (isBlock : Block block) :
    ∀ event ∈ block, event.isWindow := by
  cases isBlock <;> simp [Event.isWindow]

namespace Windows

variable {blocks : List (List Event)} {events later : List Event}

theorem behind_asides (outside : ∀ event ∈ events, event.isWindow = false)
    (windows : Windows blocks later) :
    Windows blocks (events ++ later) := by
  induction events with
  | nil => exact windows
  | cons event rest induction =>
      rw [List.forall_mem_cons] at outside
      exact .aside outside.1 (induction outside.2)

/-- The events of the windows are those of the blocks, in their order. -/
theorem filter_eq (windows : Windows blocks events) :
    events.filter Event.isWindow = blocks.flatten := by
  induction windows with
  | nil => rfl
  | aside outside _ induction =>
      rw [List.filter_cons, outside, if_neg Bool.false_ne_true, induction]
  | block isBlock _ induction =>
      rw [List.filter_append, List.filter_eq_self.mpr isBlock.all_isWindow, induction,
        List.flatten_cons]

end Windows

/-! ## Showing -/

namespace Display

def put (display : Display) (byte : UInt8) : Event × Display :=
  if display.throughWriter then
    if display.isFull then (.showFailed, display)
    else (.shown [byte], { display with accepted := display.accepted + 1 })
  else (.shown [byte], display)

def putAll (display : Display) : List UInt8 → List Event × Display
  | [] => ([], display)
  | byte :: rest =>
      let (first, behind) := display.put byte
      let (later, final) := behind.putAll rest
      (first :: later, final)

private theorem shows_put (display : Display) (byte : UInt8) :
    Event.Shows byte (display.put byte).1 := by
  unfold put
  split
  · split
    · exact .failed
    · exact .done
  · exact .done

theorem shows_putAll (display : Display) (message : List UInt8) :
    List.Forall₂ Event.Shows message (display.putAll message).1 := by
  induction message generalizing display with
  | nil => exact .nil
  | cons byte rest induction => exact .cons (shows_put display byte) (induction _)

end Display

/-! ## One measurement -/

namespace Bench

/-- A bench after a measurement, which did not touch the line. -/
def Worked (bench : Bench Unit) (events : List Event) (after : Bench Unit) : Prop :=
  ∃ raising lowering workload display,
    after = { bench with
      raising, lowering, workload, display, log := bench.log ++ events }

def showing (message : List UInt8) (bench : Bench Unit) : Bench Unit :=
  { bench with
    display := (bench.display.putAll message).2
    log := bench.log ++ (bench.display.putAll message).1 }

private theorem displayed_put {byte : UInt8} {bench : Bench Unit}
    (through : bench.display.throughWriter = true) :
    (Console.ofWriter displayWriter).put byte bench = .ok () (bench.showing [byte]) := by
  cases full : bench.display.isFull with
  | true =>
      have write : displayWriter.write [byte] bench =
          .ok none (bench.record .showFailed) := by
        simp only [displayWriter, full, if_true]
      have all : displayWriter.writeAll [byte] bench =
          .ok false (bench.record .showFailed) := by
        rw [Writer.writeAll, List.length_singleton, Writer.writeAllWithin,
          bind_of_ok write]
        rfl
      have put : bench.display.put byte = (.showFailed, bench.display) := by
        simp only [Display.put, through, full, if_true]
      simp only [Console.ofWriter, showing, Display.putAll, put]
      rw [bind_of_ok all]
      rfl
  | false =>
      let display := { bench.display with accepted := bench.display.accepted + 1 }
      have room :
          min 1 ((bench.display.budget.map (· - bench.display.accepted)).getD 1) = 1 := by
        cases budget : bench.display.budget with
        | none => rfl
        | some budget =>
            simp only [Display.isFull, budget, decide_eq_false_iff_not] at full
            simp only [Option.map_some, Option.getD_some]
            omega
      have write : displayWriter.write [byte] bench =
          .ok (some 1) ({ bench with display }.record (.shown [byte])) := by
        simp only [displayWriter, full, Bool.false_eq_true, if_false,
          List.length_singleton, room]
        rfl
      have all : displayWriter.writeAll [byte] bench =
          .ok true ({ bench with display }.record (.shown [byte])) := by
        rw [Writer.writeAll, List.length_singleton, Writer.writeAllWithin,
          bind_of_ok write]
        rfl
      have put : bench.display.put byte = (.shown [byte], display) := by
        simp only [Display.put, through, full, if_true, Bool.false_eq_true,
          if_false, display]
      simp only [Console.ofWriter, showing, Display.putAll, put]
      rw [bind_of_ok all]
      rfl

private theorem console_put (byte : UInt8) (bench : Bench Unit) :
    console.put byte bench = .ok () (bench.showing [byte]) := by
  cases through : bench.display.throughWriter with
  | true =>
      simp only [console, through, if_true]
      exact displayed_put through
  | false =>
      have put : bench.display.put byte = (.shown [byte], bench.display) := by
        simp only [Display.put, through, Bool.false_eq_true, if_false]
      simp only [console, through, Bool.false_eq_true, if_false, showing,
        Display.putAll, put]
      rfl

theorem showing_nil (bench : Bench Unit) : bench.showing [] = bench := by
  simp only [showing, Display.putAll, List.append_nil]

private theorem showing_cons (byte : UInt8) (rest : List UInt8) (bench : Bench Unit) :
    (bench.showing [byte]).showing rest = bench.showing (byte :: rest) := by
  simp [showing, Display.putAll]

private theorem putAll_run (message : List UInt8) (bench : Bench Unit) :
    console.putAll message bench = .ok () (bench.showing message) := by
  induction message generalizing bench with
  | nil =>
      rw [showing_nil]
      rfl
  | cons byte rest induction =>
      rw [Console.putAll, bind_of_ok (console_put byte bench), induction, showing_cons]

/-- Printing never stops. It attempts to show one byte after the other. -/
theorem print_run (enabled : Bool) (message : List UInt8) (bench : Bench Unit) :
    Printer.print { console, enabled } message bench =
      .ok () (bench.showing (if enabled then message.takeWhile (· != 0) else [])) := by
  cases enabled with
  | true => exact putAll_run _ bench
  | false =>
      rw [if_neg Bool.false_ne_true, showing_nil]
      rfl

/-- Which status a measurement comes to, by what it left in its window and by what it
shows. -/
inductive Concludes (debug completes : Bool) : Status → List Event → List Event → Prop
  | refused (lowered : Bool) :
      Concludes debug completes .triggerFault [.high false, .low lowered] []
  | stuck (ran : completes = true) :
      Concludes debug completes .triggerFault [.high true, .executed, .low false] []
  | confirmed {shows} (ran : completes = true)
      (shown : List.Forall₂ Event.Shows (if debug then confirmation else []) shows) :
      Concludes debug completes .ok [.high true, .executed, .low true] shows

/-- What a measurement comes to. A workload that breaks down takes the measurement with
it, but not before the line is lowered. -/
inductive Measured (debug : Bool) (bench : Bench Unit) :
    EStateM.Result Stop (Bench Unit) Status → Prop
  | concluded {status window shows after}
      (concludes : Concludes debug bench.workload.execute.1 status window shows)
      (worked : bench.Worked (window ++ shows) after) :
      Measured debug bench (.ok status after)
  | broken {lowered after} (breaks : bench.workload.execute.1 = false)
      (worked : bench.Worked [.high true, .executed, .low lowered] after) :
      Measured debug bench (.error (.fault .workload) after)

/-- What using the line around the workload comes to. -/
theorem around_run (bench : Bench Unit) :
    pin.around execute bench =
      match bench.raising.call, bench.lowering.call, bench.workload.execute with
      | (false, raising), (lowered, lowering), _ =>
          .ok .refused { bench with
            raising, lowering, log := bench.log ++ [.high false, .low lowered] }
      | (true, raising), (lowered, lowering), (true, workload) =>
          .ok (.closed lowered) { bench with
            raising, lowering, workload,
            log := bench.log ++ [.high true, .executed, .low lowered] }
      | (true, raising), (lowered, lowering), (false, workload) =>
          .error (.fault .workload) { bench with
            raising, lowering, workload,
            log := bench.log ++ [.high true, .executed, .low lowered] } := by
  rcases raises : bench.raising.call with ⟨_ | _, raising⟩
  · simp [Pin.around, Pin.window, Pin.raise, pin, raises, record]
  · rcases runs : bench.workload.execute with ⟨_ | _, workload⟩
    · simp [Pin.around, Pin.window, Pin.raise, Pin.drop, pin, raises,
        execute, runs, record]
    · simp [Pin.around, Pin.window, Pin.raise, pin, raises, execute, runs, record]

theorem measure_measured (debug : Bool) (selection : List UInt8) (bench : Bench Unit) :
    Measured debug bench
      ((Session.Measuring.measurement debug).measure selection bench) := by
  have around := around_run bench
  simp only [Measurement.measure, Session.Measuring.measurement]
  rcases raises : bench.raising.call with ⟨_ | _, raising⟩
  · simp only [raises] at around
    rw [bind_of_ok around]
    exact .concluded (.refused _) ⟨raising, bench.lowering.call.2, bench.workload,
      bench.display, rfl⟩
  · rcases lowers : bench.lowering.call with ⟨lowered, lowering⟩
    rcases runs : bench.workload.execute with ⟨_ | _, workload⟩
    · simp only [raises, lowers, runs] at around
      rw [bind_of_error around]
      exact .broken (by rw [runs]) ⟨raising, lowering, workload, bench.display, rfl⟩
    · simp only [raises, lowers, runs] at around
      rw [bind_of_ok around]
      cases lowered with
      | false =>
          exact .concluded (.stuck (by rw [runs])) ⟨raising, lowering, workload,
            bench.display, rfl⟩
      | true =>
          have printed := print_run debug confirmation { bench with
            raising, lowering, workload,
            log := bench.log ++ [.high true, .executed, .low true] }
          simp only
          rw [bind_of_ok printed]
          let message := if debug then confirmation else []
          refine .concluded (.confirmed (by rw [runs])
            (bench.display.shows_putAll message))
            ⟨raising, lowering, workload, (bench.display.putAll message).2, ?_⟩
          rw [← List.append_assoc]
          rfl

theorem isShow_of_shown {message : List UInt8} {shows : List Event}
    (shown : List.Forall₂ Event.Shows message shows) : ∀ event ∈ shows, event.isShow := by
  induction shown with
  | nil => simp
  | cons first _ induction => exact List.forall_mem_cons.mpr ⟨first.isShow, induction⟩

section Concluding

variable {debug completes : Bool} {status : Status} {window shows : List Event}
  (concludes : Concludes debug completes status window shows)
include concludes

theorem Concludes.block : Block window := by
  cases concludes with
  | refused lowered => exact .refused lowered
  | stuck => exact .ran false
  | confirmed => exact .ran true

theorem Concludes.isShow : ∀ event ∈ shows, event.isShow := by
  cases concludes with
  | refused => simp
  | stuck => simp
  | confirmed _ shown => exact isShow_of_shown shown

end Concluding

/-- A measurement leaves one block behind, and then what it shows. -/
theorem measure_block (debug : Bool) (selection : List UInt8) (bench : Bench Unit) :
    ∃ block shows, Block block ∧ (∀ event ∈ shows, event.isShow) ∧
      bench.Worked (block ++ shows)
        (Session.ending ((Session.Measuring.measurement debug).measure
          selection) bench).2 := by
  have measured := measure_measured debug selection bench
  simp only [Session.ending]
  generalize (Session.Measuring.measurement debug).measure selection bench =
    result at measured
  cases measured with
  | concluded concludes worked => exact ⟨_, _, concludes.block, concludes.isShow, worked⟩
  | broken _ worked => exact ⟨_, [], .ran _, by simp, by rwa [List.append_nil]⟩

/-! ## Runs -/

structure Aside (bench after : Bench Unit) : Prop where
  logged : ∃ events, (∀ event ∈ events, event.isWindow = false) ∧
    after.log = bench.log ++ events
  raising : after.raising = bench.raising
  lowering : after.lowering = bench.lowering
  workload : after.workload = bench.workload

/-- How measurements and other activities took one bench to another one: the blocks that
the measurements left, one for each, in the order in which they were made. -/
inductive Course (measurement : Measurement (Bench Unit)) :
    List (List Event) → Bench Unit → Bench Unit → Prop
  | done {bench} : Course measurement [] bench bench
  | aside {blocks bench middle after} (aside : Aside bench middle)
      (behind : Course measurement blocks middle after) :
      Course measurement blocks bench after
  | measured {blocks bench after block shows} (selection : List UInt8)
      (isBlock : Block block) (areShows : ∀ event ∈ shows, event.isShow)
      (logged : (Session.ending (measurement.measure selection) bench).2.log =
        bench.log ++ (block ++ shows))
      (behind : Course measurement blocks
        (Session.ending (measurement.measure selection) bench).2 after) :
      Course measurement (block :: blocks) bench after

namespace Course

variable {measurement : Measurement (Bench Unit)} {blocks more : List (List Event)}
  {bench middle after : Bench Unit}

theorem append (before : Course measurement blocks bench middle)
    (behind : Course measurement more middle after) :
    Course measurement (blocks ++ more) bench after := by
  induction before with
  | done => exact behind
  | aside aside _ induction => exact .aside aside (induction behind)
  | measured selection isBlock areShows logged _ induction =>
      exact .measured selection isBlock areShows logged (induction behind)

theorem windows (course : Course measurement blocks bench after) :
    ∃ events, after.log = bench.log ++ events ∧ Windows blocks events := by
  induction course with
  | done => exact ⟨[], (List.append_nil _).symm, .nil⟩
  | aside aside _ induction =>
      rcases aside.logged with ⟨events, outside, logged⟩
      rcases induction with ⟨later, loggedLater, windows⟩
      exact ⟨events ++ later, by rw [loggedLater, logged, List.append_assoc],
        windows.behind_asides outside⟩
  | @measured _ _ _ block shows _ isBlock areShows logged _ induction =>
      rcases induction with ⟨later, loggedLater, windows⟩
      have outside : ∀ event ∈ shows, event.isWindow = false := fun event member =>
        Event.isWindow_of_isShow (areShows event member)
      exact ⟨block ++ (shows ++ later), by simp only [loggedLater, logged,
        List.append_assoc], .block isBlock (windows.behind_asides outside)⟩

end Course

def Coursed (measurement : Measurement (Bench Unit)) (bench after : Bench Unit) : Prop :=
  ∃ blocks, Course measurement blocks bench after

private theorem coursed_accrues (measurement : Measurement (Bench Unit)) :
    Accrues (Coursed measurement) where
  refl _ := ⟨[], .done⟩
  trans := by
    rintro first second third ⟨blocks, before⟩ ⟨more, behind⟩
    exact ⟨blocks ++ more, before.append behind⟩

private theorem Aside.coursed {bench after : Bench Unit} (aside : Aside bench after)
    (measurement : Measurement (Bench Unit)) :
    Coursed measurement bench after :=
  ⟨[], .aside aside .done⟩

private theorem aside_accrues : Accrues Aside where
  refl _ := ⟨⟨[], by simp, (List.append_nil _).symm⟩, rfl, rfl, rfl⟩
  trans := by
    intro first second third before behind
    rcases before.logged with ⟨events, outside, logged⟩
    rcases behind.logged with ⟨more, outsideMore, loggedMore⟩
    exact
      { logged := ⟨events ++ more, List.forall_mem_append.mpr ⟨outside, outsideMore⟩,
          by rw [loggedMore, logged, List.append_assoc]⟩
        raising := behind.raising.trans before.raising
        lowering := behind.lowering.trans before.lowering
        workload := behind.workload.trans before.workload }

private theorem aside_of_line (bench : Bench Unit) (line : Line) :
    Aside bench { bench with line } :=
  ⟨(aside_accrues.refl bench).logged, rfl, rfl, rfl⟩

private theorem aside_of_record (bench : Bench Unit) (line : Line) {event : Event}
    (outside : event.isWindow = false) :
    Aside bench ({ bench with line }.record event) :=
  ⟨⟨[event], by simpa using outside, rfl⟩, rfl, rfl, rfl⟩

private theorem port_aside : (port : Port (Bench Unit)).CallsWithin Aside where
  read wanted bench := by
    simp only [Session.ending, port, readLine]
    rcases bench.line.read wanted with ⟨_ | _ | _, line⟩
    · exact aside_of_record bench line rfl
    · exact aside_of_record bench line rfl
    · exact aside_accrues.refl bench
  write bytes bench := by
    simp only [Session.ending, port, writeLine]
    rcases bench.line.write bytes with ⟨_ | _, line⟩
    · exact aside_of_record bench line rfl
    · exact aside_of_record bench line rfl
  flush bench := by
    simp only [Session.ending, port, flushLine]
    exact aside_of_record bench _ rfl

private theorem measure_coursed (debug : Bool) (selection : List UInt8) :
    StaysWithin (Coursed (Session.Measuring.measurement debug))
      ((Session.Measuring.measurement debug).measure selection) := by
  intro bench
  rcases measure_block debug selection bench with
    ⟨block, shows, isBlock, areShows, _, _, _, _, worked⟩
  exact ⟨[block], .measured selection isBlock areShows (by rw [worked]) .done⟩

def scene : Session.Rigging.Scene (Bench Unit) Event :=
  { Session.Rigging.benchScene with drain := fun bench => (bench.log, bench) }

private theorem scene_coursed (measurement : Measurement (Bench Unit)) :
    scene.IntervenesWithin (Coursed measurement) where
  drain := (coursed_accrues measurement).refl
  feed _ bench := (aside_of_line bench _).coursed measurement
  setEndless _ bench := (aside_of_line bench _).coursed measurement

end Bench

end Simulation

namespace Poll

def FindsNothing (poll : Poll) : Prop :=
  (∃ reason, poll.result = .ok (.rejected reason)) ∨
    poll.result = .error (.failed .endOfStream) ∨
    poll.result = .error (.failed (.port .read))

private theorem log_ofResult (activity : Activity (Bench Unit) Outcome)
    (bench : Bench Unit) :
    (ofResult id (activity bench)).1.log = (Session.ending activity bench).2.log := by
  simp only [Session.ending]
  cases activity bench <;> rfl

end Poll

namespace Responder

/-- A poll that called a handler comes to a status, or is cut short by the handler or by a
call that sends. -/
theorem answer_of_calls {responder : Responder (Bench Unit)} {received : Received}
    (calls : responder.Calls received) (bench : Bench Unit) :
    ¬(Poll.ofResult id (responder.answer Bench.port received bench)).1.FindsNothing := by
  rcases calls with ⟨frame, entry, rfl, found, fits⟩
  have settles := settle_of_found found fits
  cases handled : entry.handler frame.request .empty bench with
  | error stop after =>
      have stopped : responder.settle (.frame frame) bench =
          .error (.stopped stop) after := by
        rw [settles, bind_of_error (ofAction_of_error handled)]
      rw [answer_of_stopped stopped]
      simp [Poll.FindsNothing, Poll.ofResult]
  | ok answer middle =>
      have settled : responder.settle (.frame frame) bench =
          .ok (responder.protocol.acknowledgement answer,
            .handled frame.command answer.status) middle := by
        rw [settles, bind_of_ok (ofAction_of_ok handled)]
        rfl
      have transmission := Bench.sendPackets_transmission responder.protocol
        (Protocol.acknowledgement_isShort responder.protocol answer) middle
      rw [answer_of_settled settled]
      generalize responder.protocol.sendPackets Bench.port
        (responder.protocol.acknowledgement answer) middle = sent at transmission
      cases transmission with
      | complete => simp [Poll.FindsNothing, Poll.ofResult, afterSending]
      | cut _ _ cause _ =>
          cases cause <;> simp [Poll.FindsNothing, Poll.ofResult, afterSending]

/-- Whatever handlers are registered, a poll that finds nothing to carry out has no part
in a measurement. -/
theorem poll_aside {responder : Responder (Bench Unit)}
    {link : Link capacity (Bench Unit)} (nothing : (responder.poll link).1.FindsNothing) :
    ∀ event ∈ (responder.poll link).1.log, event.isWindow = false := by
  have received :=
    responder.receive_staysWithin Bench.aside_accrues Bench.port_aside
      (link.mapWorld Bench.cleared)
  simp only [InvImage, Session.ending] at received
  cases ran : responder.receive Bench.port (link.mapWorld Bench.cleared) with
  | error reason after =>
      simp only [ran] at received
      rcases received.logged with ⟨events, outside, logged⟩
      rw [poll_of_receive_error ran]
      simpa [logged, Link.mapWorld, Bench.cleared] using outside
  | ok found middle =>
      simp only [ran] at received
      rw [poll_of_receive ran, Poll.ofResult_lift] at nothing ⊢
      by_cases calls : responder.Calls found
      · exact absurd nothing (answer_of_calls calls middle.world)
      · -- Handlers need not stay aside, but none is called here: settling is the packets
        -- and the outcome by themselves.
        rcases settle_of_not_calls calls with ⟨packets, outcome, settles, _⟩
        have settlesAside : StaysWithin Bench.Aside (responder.settle found) := by
          rw [settles]
          exact .pure Bench.aside_accrues _
        have answered :=
          Bench.aside_accrues.compositional.answer Bench.port_aside.toSends
            settlesAside middle.world
        rcases (Bench.aside_accrues.trans received answered).logged with
          ⟨events, outside, logged⟩
        rw [Poll.log_ofResult, logged]
        simpa [Link.mapWorld, Bench.cleared] using outside

end Responder

namespace Rig

def onBench (settings : Settings) : Rig (Bench Unit) where
  settings := settings
  mode := settings.mode
  port := Bench.port
  measurement := Session.Measuring.measurement settings.debug

theorem setUp_run (settings : Settings) (bench : Bench Unit) :
    Rig.setUp settings Bench.board Bench.execute bench =
      .ok (onBench settings)
        (({ bench with
          log := bench.log ++ [.platformPrepared, .serialStarted, .triggerSetUp] } : Bench
          Unit).showing (if settings.debug then banner else [])) := by
  have printed := Bench.print_run settings.debug banner
    { bench with log := bench.log ++ [.platformPrepared, .serialStarted, .triggerSetUp] }
  have opening : Rig.setUp settings Bench.board Bench.execute bench =
      (Printer.print { console := Bench.console, enabled := settings.debug } banner >>=
        fun _ => pure (onBench settings))
        (((bench.record .platformPrepared).record .serialStarted).record .triggerSetUp) :=
    rfl
  have recorded :
      ((bench.record .platformPrepared).record .serialStarted).record .triggerSetUp =
      { bench with log := bench.log ++ [.platformPrepared, .serialStarted,
                     .triggerSetUp] } := by
    simp [Bench.record]
  rw [opening, recorded, bind_of_ok printed]
  rfl

private theorem setUp_onBench (settings : Settings) (bench : Bench Unit) :
    ∃ display shows, List.Forall₂ Event.Shows (if settings.debug then banner
      else []) shows ∧
      Rig.setUp settings Bench.board Bench.execute bench =
        .ok (onBench settings) { bench with
          display,
          log := bench.log ++
            ([.platformPrepared, .serialStarted, .triggerSetUp] ++ shows) } := by
  let message := if settings.debug then banner else []
  refine ⟨(bench.display.putAll message).2, (bench.display.putAll message).1,
    bench.display.shows_putAll message, ?_⟩
  rw [setUp_run, ← List.append_assoc]
  rfl

private theorem onBench_coursed (settings : Settings) :
    (onBench settings).WorksWithin
      (Bench.Coursed (Session.Measuring.measurement settings.debug)) where
  calls :=
    { read := fun wanted bench => (Bench.port_aside.read wanted bench).coursed _
      write := fun bytes bench => (Bench.port_aside.write bytes bench).coursed _
      flush := fun bench => (Bench.port_aside.flush bench).coursed _ }
  measures := Bench.measure_coursed settings.debug

private theorem setUp_coursed (settings : Settings) (bench : Bench Unit) :
    Bench.Coursed (Session.Measuring.measurement settings.debug) bench
      (Session.ending (Rig.setUp settings Bench.board Bench.execute) bench).2 := by
  rcases setUp_onBench settings bench with ⟨display, shows, shown, ready⟩
  have ofShows : ∀ event ∈ shows, event.isWindow = false := fun event member =>
    Event.isWindow_of_isShow (Bench.isShow_of_shown shown event member)
  have outside : ∀ event ∈ [.platformPrepared, .serialStarted, .triggerSetUp] ++ shows,
      Event.isWindow event = false :=
    List.forall_mem_append.mpr ⟨by simp [Event.isWindow], ofShows⟩
  simp only [Session.ending, ready]
  apply Bench.Aside.coursed
  exact { logged := ⟨_, outside, rfl⟩, raising := rfl, lowering := rfl, workload := rfl }

private theorem afterRun_coursed (settings : Settings) (steps : List Session.Rigging.Step)
    (bench : Bench Unit) :
    Bench.Coursed (Session.Measuring.measurement settings.debug) bench
      (Session.Rigging.afterRun Bench.scene settings steps bench) := by
  have accrues := Bench.coursed_accrues (Session.Measuring.measurement settings.debug)
  have opening := setUp_coursed settings bench
  rcases setUp_onBench settings bench with ⟨_, _, _, ready⟩
  simp only [Session.ending, ready] at opening
  rw [Session.Rigging.afterRun_of_ok ready]
  exact accrues.trans opening
    (Session.Rigging.afterSteps_related accrues (Bench.scene_coursed _)
      (onBench_coursed settings) steps _)

structure KeepsApart (settings : Settings) : Prop where
  /-- The windows in the log of a run are the blocks that its measurements left, in order
  and each in one piece. -/
  runs : ∀ (steps : List Session.Rigging.Step) (bench : Bench Unit),
    let after := Session.Rigging.afterRun Bench.scene settings steps bench
    ∃ blocks events, Bench.Course (Session.Measuring.measurement settings.debug) blocks
        bench after ∧ after.log = bench.log ++ events ∧ Windows blocks events ∧
      events.filter Event.isWindow = blocks.flatten
  /-- Setting a bench up always leads to the same rig. -/
  rig : ∀ bench, ∃ ready, Rig.setUp settings Bench.board Bench.execute bench =
    .ok (onBench settings) ready
  /-- Measuring once leaves one block, and shows at most a confirmation. The port is left
  alone. -/
  measuresOnce : ∀ bench, ∃ block shows, Block block ∧ (∀ event ∈ shows, event.isShow) ∧
    (Session.ending (onBench settings).measureOnce bench).2.log =
      bench.log ++ (block ++ shows)
  /-- A poll that finds nothing to carry out leaves no block. -/
  polls : ∀ responder (link : Connection (Bench Unit)),
    (onBench settings).responder = .ok responder → (responder.poll link).1.FindsNothing →
    ∀ event ∈ (responder.poll link).1.log, event.isWindow = false

theorem keepsApart (settings : Settings) : KeepsApart settings where
  runs steps bench := by
    rcases afterRun_coursed settings steps bench with ⟨blocks, course⟩
    rcases course.windows with ⟨events, logged, windows⟩
    exact ⟨blocks, events, course, logged, windows, windows.filter_eq⟩
  rig bench := by
    rcases setUp_onBench settings bench with ⟨_, _, _, ready⟩
    exact ⟨_, ready⟩
  measuresOnce bench := by
    rcases Bench.measure_block settings.debug [settings.sentinel] bench with
      ⟨block, shows, isBlock, areShows, _, _, _, _, worked⟩
    exact ⟨block, shows, isBlock, areShows, congrArg Bench.log worked⟩
  polls _ _ _ nothing := Responder.poll_aside nothing

end Rig

end TriggerBench
