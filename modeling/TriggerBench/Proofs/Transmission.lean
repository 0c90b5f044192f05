import TriggerBench.Proofs.Sending
import TriggerBench.Simulation.Bench

/-! # Transmission on a bench

Each call that sends leaves one event in the log of a bench, and counts on its line. So
the events tell what sending came to: the bytes that were accepted, and the call that cut
it short.
-/

namespace TriggerBench

namespace Simulation

/-! ## Calls of the port -/

namespace Event

def accepted : Event → List UInt8
  | sent bytes => bytes
  | _ => []

def isFault : Event → Bool
  | sendFailed => true
  | flushed done => !done
  | _ => false

def isTransmission : Event → Bool
  | sent _ | sendFailed | flushed _ => true
  | _ => false

end Event

def acceptedBytes (events : List Event) : List UInt8 :=
  events.flatMap Event.accepted

@[simp] theorem acceptedBytes_append (first second : List Event) :
    acceptedBytes (first ++ second) = acceptedBytes first ++ acceptedBytes second :=
  List.flatMap_append

theorem acceptedBytes_of_silent {events : List Event}
    (silent : ∀ event ∈ events, event.isTransmission = false) :
    acceptedBytes events = [] := by
  rw [acceptedBytes, List.flatMap_eq_nil_iff]
  intro event member
  have notSent := silent event member
  cases event <;> simp [Event.isTransmission, Event.accepted] at notSent ⊢

namespace Line

def Progresses (line : Line) : Prop :=
  ∀ calls accepted offered, 0 < offered → line.acceptance calls accepted offered ≠ some 0

structure Faultless (line : Line) : Prop where
  progresses : line.Progresses
  accepts : ∀ calls accepted offered, 0 < offered →
    line.acceptance calls accepted offered ≠ none
  flushes : ∀ call, line.flushes.fails call = false

/-- Whether a line fails is a matter of what it accepts and which flushes fail. -/
theorem Faultless.congr {line other : Line} (faultless : line.Faultless)
    (sameAcceptance : other.acceptance = line.acceptance)
    (sameFlushes : other.flushes.fails = line.flushes.fails) :
    other.Faultless where
  progresses := by
    rw [Progresses, sameAcceptance]
    exact faultless.progresses
  accepts := sameAcceptance ▸ faultless.accepts
  flushes := sameFlushes ▸ faultless.flushes

end Line

namespace Bench

variable {Memory : Type}

structure Transmitted (bench : Bench Memory) (events : List Event)
    (after : Bench Memory) : Prop where
  sending : ∀ event ∈ events, event.isTransmission
  counted : ∃ writes accepted calls, after =
    { bench with
      line :=
        { bench.line with writes, accepted, flushes := { bench.line.flushes with calls } }
      log := bench.log ++ events }

inductive Cut (line : Line) : Event → Interruption → Prop
  | write (faulty : ¬line.Faultless) : Cut line .sendFailed (.failed (.port .write))
  | flush (faulty : ¬line.Faultless) : Cut line (.flushed false) (.failed (.port .flush))
  | stalled (stalls : ¬line.Progresses) :
      Cut line (.sent []) (.stopped (.fault .stalledWrite))

inductive Transmission (bytes : List UInt8) (bench : Bench Memory) :
    EStateM.Result Interruption (Bench Memory) Unit → Prop
  | complete {events after} (transmitted : bench.Transmitted events after)
      (fine : ∀ event ∈ events, event.isFault = false)
      (all : acceptedBytes events = bytes) :
      Transmission bytes bench (.ok () after)
  | cut {events last reason after}
      (transmitted : bench.Transmitted (events ++ [last]) after)
      (fine : ∀ event ∈ events, event.isFault = false)
      (cause : Cut bench.line last reason) (part : acceptedBytes events <+: bytes) :
      Transmission bytes bench (.error reason after)

theorem Transmitted.refl (bench : Bench Memory) : bench.Transmitted [] bench where
  sending := by simp
  counted := ⟨bench.line.writes, bench.line.accepted, bench.line.flushes.calls, by simp⟩

theorem Transmitted.logged {bench after : Bench Memory} {events : List Event}
    (transmitted : bench.Transmitted events after) :
    after.log = bench.log ++ events := by
  rcases transmitted.counted with ⟨writes, accepted, calls, rfl⟩
  rfl

theorem Transmitted.trans {first second third : Bench Memory} {events more : List Event}
    (before : first.Transmitted events second) (behind : second.Transmitted more third) :
    first.Transmitted (events ++ more) third where
  sending := List.forall_mem_append.mpr ⟨before.sending, behind.sending⟩
  counted := by
    rcases before.counted with ⟨_, _, _, rfl⟩
    rcases behind.counted with ⟨writes, accepted, calls, rfl⟩
    exact ⟨writes, accepted, calls, by simp⟩

/-- What cuts a transmission short is a matter of what the line accepts and which flushes
fail. -/
theorem Cut.congr {line other : Line} {last : Event} {reason : Interruption}
    (cause : Cut line last reason) (sameAcceptance : line.acceptance = other.acceptance)
    (sameFlushes : line.flushes.fails = other.flushes.fails) :
    Cut other last reason := by
  cases cause with
  | write faulty =>
      exact .write fun faultless => faulty (faultless.congr sameAcceptance sameFlushes)
  | flush faulty =>
      exact .flush fun faultless => faulty (faultless.congr sameAcceptance sameFlushes)
  | stalled stalls =>
      rw [Line.Progresses, sameAcceptance] at stalls
      exact .stalled stalls

theorem Transmitted.cut {bench after : Bench Memory} {events : List Event}
    (transmitted : bench.Transmitted events after) {last : Event} {reason : Interruption}
    (cause : Cut after.line last reason) : Cut bench.line last reason := by
  rcases transmitted.counted with ⟨writes, accepted, calls, rfl⟩
  exact cause.congr rfl rfl

/-! ## Calls -/

inductive Offer (bytes : List UInt8) (bench : Bench Memory) :
    EStateM.Result Stop (Bench Memory) (Option Nat) → Prop
  | failed {after} (transmitted : bench.Transmitted [.sendFailed] after)
      (faulty : ¬bench.line.Faultless) :
      Offer bytes bench (.ok none after)
  | stalled {after} (transmitted : bench.Transmitted [.sent []] after)
      (stalls : ¬bench.line.Progresses) :
      Offer bytes bench (.ok (some 0) after)
  | taken {count after}
      (transmitted : bench.Transmitted [.sent (bytes.take (count + 1))] after) :
      Offer bytes bench (.ok (some (count + 1)) after)

private theorem writeLine_offer (byte : UInt8) (rest : List UInt8)
    (bench : Bench Memory) :
    Offer (byte :: rest) bench (writeLine (byte :: rest) bench) := by
  generalize isBytes : byte :: rest = bytes
  have nonempty : 0 < bytes.length := by simp [← isBytes]
  rw [writeLine, Line.write]
  cases accepts : bench.line.acceptance bench.line.writes bench.line.accepted
    bytes.length with
  | none =>
      refine .failed ⟨?_, _, _, _, rfl⟩ fun faultless =>
        faultless.accepts _ _ _ nonempty accepts
      simp [Event.isTransmission]
  | some count =>
      cases count with
      | zero =>
          simp only [Nat.zero_min]
          refine .stalled ⟨?_, _, _, _, rfl⟩ fun progresses =>
            progresses _ _ _ nonempty accepts
          simp [Event.isTransmission]
      | succ count =>
          obtain ⟨taken, isMin⟩ : ∃ taken, min (count + 1) bytes.length = taken + 1 :=
            ⟨min (count + 1) bytes.length - 1, by omega⟩
          simp only [isMin]
          refine .taken ⟨?_, _, _, _, rfl⟩
          simp [Event.isTransmission]

private theorem flushLine_transmitted {bench after : Bench Memory} {done : Bool}
    (flushed : flushLine bench = .ok done after) :
    bench.Transmitted [.flushed done] after ∧ (done = false → ¬bench.line.Faultless) := by
  simp only [flushLine, Line.flush, Schedule.call] at flushed
  cases flushed
  refine ⟨⟨by simp [Event.isTransmission], _, _, _, rfl⟩, fun failed faultless => ?_⟩
  simp [faultless.flushes] at failed

private theorem transmitted_of_accepts {bytes : List UInt8} {bench after : Bench Memory}
    (accepts : port.Accepts bytes bench after) :
    ∃ events, bench.Transmitted events after ∧ (∀ event ∈ events, event.isFault = false) ∧
      acceptedBytes events = bytes := by
  induction accepts with
  | @nothing bench => exact ⟨[], .refl bench, by simp, rfl⟩
  | @portion byte more count rest bench middle after written _ induction =>
      rcases induction with ⟨events, transmitted, fine, all⟩
      have offer : Offer (byte :: more) bench (port.write (byte :: more) bench) :=
        writeLine_offer _ _ bench
      rw [written] at offer
      cases offer with
      | taken sent =>
          refine ⟨_, sent.trans transmitted, ?_, ?_⟩
          · simpa [Event.isFault] using fine
          · rw [acceptedBytes_append, all]
            simp [acceptedBytes, Event.accepted]
  | @flushed rest bench middle after flush _ induction =>
      rcases induction with ⟨events, transmitted, fine, all⟩
      refine ⟨_, (flushLine_transmitted flush).1.trans transmitted, ?_, ?_⟩
      · simpa [Event.isFault] using fine
      · rw [acceptedBytes_append, all]
        simp [acceptedBytes, Event.accepted]

private theorem cut_of_refuses {reason : Interruption} {bench after : Bench Memory}
    (refuses : port.Refuses reason bench after) :
    ∃ last, bench.Transmitted [last] after ∧ Cut bench.line last reason := by
  cases refuses with
  | @write byte rest _ _ written =>
      have offer : Offer (byte :: rest) bench (port.write (byte :: rest) bench) :=
        writeLine_offer _ _ bench
      rw [written] at offer
      cases offer with
      | failed transmitted faulty => exact ⟨_, transmitted, .write faulty⟩
  | @stalled byte rest _ _ written =>
      have offer : Offer (byte :: rest) bench (port.write (byte :: rest) bench) :=
        writeLine_offer _ _ bench
      rw [written] at offer
      cases offer with
      | stalled transmitted stalls => exact ⟨_, transmitted, .stalled stalls⟩
  | flush flushed =>
      rcases flushLine_transmitted flushed with ⟨transmitted, faulty⟩
      exact ⟨_, transmitted, .flush (faulty rfl)⟩
  | @writeStopped offered _ _ _ written =>
      change writeLine offered bench = _ at written
      rw [writeLine] at written
      split at written <;> cases written
  | flushStopped flushed => cases flushed

/-- What sending comes to on any port, told by the events that it leaves on a bench. -/
theorem Transmission.of_sent {bytes : List UInt8} {bench : Bench Memory}
    {result : EStateM.Result Interruption (Bench Memory) Unit}
    (sent : port.Sent bytes bench result) :
    Transmission bytes bench result := by
  cases sent with
  | complete accepts =>
      rcases transmitted_of_accepts accepts with ⟨events, transmitted, fine, all⟩
      exact .complete transmitted fine all
  | cut accepts isPart refuses =>
      rcases transmitted_of_accepts accepts with ⟨events, transmitted, fine, rfl⟩
      rcases cut_of_refuses refuses with ⟨last, lastTransmitted, cause⟩
      exact .cut (transmitted.trans lastTransmitted) fine (transmitted.cut cause) isPart

theorem send_transmission (protocol : Protocol) {packet : Packet} (short : packet.IsShort)
    (bench : Bench Memory) :
    Transmission (protocol.form packet) bench
      (protocol.send port packet.tag packet.data bench) :=
  .of_sent (port.sent_accounts.send protocol short bench)

theorem sendPackets_transmission (protocol : Protocol) {packets : List Packet}
    (short : ∀ packet ∈ packets, packet.IsShort) (bench : Bench Memory) :
    Transmission (packets.flatMap protocol.form) bench
      (protocol.sendPackets port packets bench) :=
  .of_sent (port.sent_accounts.sendPackets protocol short bench)

end Bench

end Simulation

end TriggerBench
