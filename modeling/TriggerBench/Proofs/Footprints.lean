import TriggerBench.Proofs.AnswerPackets
import TriggerBench.Proofs.Receiving
import TriggerBench.Proofs.Registrations
import TriggerBench.Session.Rigging

/-! # What activities leave behind

What happens to a world is told by a relation between the world before and the world
after. A relation that holds over nothing, and over one thing behind another, holds over
everything that a responder or a rig does as soon as it holds over the calls of the port
and over each measurement. It does so whether an activity has a result or is cut short.
-/

namespace TriggerBench

variable {World Whole Reason Result Next : Type} {capacity : Nat}

structure Accrues (related : World → World → Prop) : Prop where
  refl : ∀ world, related world world
  trans : ∀ {first second third}, related first second → related second third →
    related first third

def StaysWithin (related : World → World → Prop)
    (activity : EStateM Reason World Result) : Prop :=
  ∀ world, related world (Session.ending activity world).2

private theorem Accrues.ofPart {related : World → World → Prop}
    (accrues : Accrues related) (part : Whole → World) :
    Accrues (InvImage related part) where
  refl whole := accrues.refl (part whole)
  trans before behind := accrues.trans before behind

namespace StaysWithin

variable {related : World → World → Prop}

section Sequencing

variable (accrues : Accrues related)
include accrues

theorem pure (result : Result) :
    StaysWithin related (pure result : EStateM Reason World Result) :=
  accrues.refl

theorem throw (reason : Reason) :
    StaysWithin related (throw reason : EStateM Reason World Result) :=
  accrues.refl

theorem bind {first : EStateM Reason World Result}
    {next : Result → EStateM Reason World Next} (firstStays : StaysWithin related first)
    (nextStays : ∀ result, StaysWithin related (next result)) :
    StaysWithin related (first >>= next) := by
  intro world
  have before := firstStays world
  cases ran : first world with
  | ok result middle =>
      simp only [Session.ending, ran] at before
      simp only [Session.ending, bind_of_ok ran]
      exact accrues.trans before (nextStays result middle)
  | error reason middle =>
      simp only [Session.ending, ran] at before
      simp only [Session.ending, bind_of_error ran]
      exact before

end Sequencing

theorem ofAction {action : Action World Result} (stays : StaysWithin related action) :
    StaysWithin related (Activity.ofAction action) := by
  intro world
  have inAction := stays world
  simp only [Session.ending, Activity.ofAction] at inAction ⊢
  cases ran : action world <;> simpa only [ran] using inAction

theorem ofStep {step : World → Result × World}
    (stays : ∀ world, related world (step world).2) :
    StaysWithin related (Action.ofStep step) :=
  stays

theorem lift {activity : EStateM Reason World Result}
    (stays : StaysWithin related activity) :
    StaysWithin (InvImage related Link.world)
      (Link.worldComponent.lift activity : EStateM _ (Link capacity World) _) := by
  intro link
  have inWorld := stays link.world
  simp only [Session.ending, Component.lift, Link.worldComponent] at inWorld ⊢
  cases ran : activity link.world <;> simpa only [ran, InvImage] using inWorld

end StaysWithin

theorem Accrues.compositional {related : World → World → Prop}
    (accrues : Accrues related) :
    Compositional (StaysWithin related) where
  pure := StaysWithin.pure accrues
  throw := StaysWithin.throw accrues
  bind := StaysWithin.bind accrues
  ofAction := StaysWithin.ofAction

/-! ## Receiving -/

structure Port.CallsWithin (port : Port World) (related : World → World → Prop) : Prop
    extends port.Sends (StaysWithin related) where
  read : ∀ wanted, StaysWithin related (port.read wanted)

variable {related : World → World → Prop} (accrues : Accrues related)
include accrues

section Receiving

variable {port : Port World} (calls : port.CallsWithin related)

theorem Accrues.release (count : Nat) :
    StaysWithin (InvImage related Link.world)
      (Link.release count : Activity (Link capacity World) Unit) := by
  intro link
  simp only [Session.ending]
  cases released : link.staged.release? ⟨count⟩ with
  | some staged =>
      rw [Link.release_run released]
      exact accrues.refl _
  | none =>
      rw [Link.release, get_bind, released]
      exact accrues.refl _

include calls

theorem Port.CallsWithin.refill :
    StaysWithin (InvImage related Link.world)
      (Link.refill port : Activity (Link capacity World) Unit) := by
  intro link
  simp only [Session.ending]
  cases room : link.staged.room? with
  | none =>
      rw [Link.refill, get_bind, room]
      exact accrues.refl _
  | some region =>
      have read := calls.read region.length link.world
      rw [Link.refill_run port room]
      simp only [Session.ending] at read
      rcases ran : port.read region.length link.world with
        ⟨_ | ⟨_ | ⟨byte, rest⟩⟩, world⟩ | ⟨stop, world⟩
      all_goals
        simp only [ran] at read
        exact read

namespace Responder

variable (responder : Responder World)

private theorem turn_staysWithin :
    StaysWithin (InvImage related Link.world)
      (responder.turn port : Activity (Link capacity World) (Option Received)) := by
  have onLinks := accrues.ofPart (Link.world : Link capacity World → World)
  intro link
  cases found : responder.examine link.staged.toList with
  | some examined =>
      simp only [Session.ending, turn_of_unit found]
      exact StaysWithin.bind onLinks (accrues.release _) (fun _ => .pure onLinks _) link
  | none =>
      cases full : link.staged.isFull with
      | true =>
          simp only [Session.ending, turn_of_full found full]
          exact accrues.refl _
      | false =>
          simp only [Session.ending, turn_of_waiting found full]
          exact StaysWithin.bind onLinks (calls.refill accrues) (fun _ =>
            .pure onLinks _) link

private theorem receiveWithin_staysWithin (turns : Nat) :
    StaysWithin (InvImage related Link.world)
      (responder.receiveWithin port turns : Activity (Link capacity World) Received) := by
  have onLinks := accrues.ofPart (Link.world : Link capacity World → World)
  induction turns with
  | zero => exact .throw onLinks _
  | succ turns induction =>
      apply StaysWithin.bind onLinks (responder.turn_staysWithin accrues calls)
      intro handedOn
      cases handedOn with
      | some received => exact .pure onLinks received
      | none => exact induction

theorem receive_staysWithin :
    StaysWithin (InvImage related Link.world)
      (responder.receive port : Activity (Link capacity World) Received) := by
  intro link
  simp only [Session.ending, receive, get_bind]
  exact responder.receiveWithin_staysWithin accrues calls _ link

end Responder

end Receiving

/-! ## Serving -/

namespace Responder

def HandlesWithin (responder : Responder World) (related : World → World → Prop) : Prop :=
  ∀ entry ∈ responder.table.entries, ∀ request reply,
    StaysWithin related (entry.handler request reply)

variable {responder : Responder World} {port : Port World}
  (calls : port.CallsWithin related) (handles : responder.HandlesWithin related)

include calls handles

private theorem serveOne_staysWithin :
    StaysWithin (InvImage related Link.world)
      (responder.serveOne port : Activity (Link capacity World) Outcome) :=
  .bind (accrues.ofPart Link.world) (responder.receive_staysWithin accrues calls)
    fun received =>
    (accrues.compositional.answer calls.toSends
      (accrues.compositional.settle _ handles received)).lift

private theorem serveWithin_related (frames : Nat) (link : Link capacity World) :
    related link.world (responder.serveWithin port frames link).2.world := by
  induction frames generalizing link with
  | zero => exact accrues.refl _
  | succ frames induction =>
      have served :
          related link.world (Session.ending (responder.serveOne port) link).2.world :=
        serveOne_staysWithin accrues calls handles link
      rw [serveWithin]
      simp only [Session.ending] at served
      cases ran : responder.serveOne port link with
      | ok outcome after =>
          simp only [ran] at served
          exact accrues.trans served (induction after)
      | error reason after =>
          simp only [ran] at served
          cases reason with
          | failed error => exact accrues.trans served (induction after)
          | stopped stop => exact served

end Responder

/-! ## Rigs -/

namespace Rig

structure WorksWithin (rig : Rig World) (related : World → World → Prop) : Prop where
  calls : rig.port.CallsWithin related
  measures : ∀ selection, StaysWithin related (rig.measurement.measure selection)

variable {rig : Rig World} (works : rig.WorksWithin related)
include works

private theorem WorksWithin.handles {responder : Responder World}
    (registered : rig.responder = .ok responder) :
    responder.HandlesWithin related := by
  intro entry member request reply
  unfold Rig.responder Responder.register at registered
  cases done :
    (Responder.ofProtocol rig.settings.protocol : Responder World).table.register
      { command := rig.settings.command
        length := rig.settings.payloadLength
        handler := rig.measurement.handler } with
  | error error =>
      rw [done] at registered
      cases registered
  | ok table =>
      rw [done] at registered
      cases registered
      rcases CommandTable.mem_of_register done member with ⟨rfl, _⟩ | inTable
      · exact .bind accrues (works.measures _) fun _ => .pure accrues _
      · cases inTable

theorem WorksWithin.serve : StaysWithin related rig.serve := by
  intro world
  simp only [Session.ending, Rig.serve]
  cases registered : rig.responder with
  | error error => exact accrues.refl _
  | ok responder =>
      exact Responder.serveWithin_related accrues works.calls
        (works.handles accrues registered) _ (.fresh world)

theorem WorksWithin.run : StaysWithin related rig.run := by
  rw [Rig.run]
  cases rig.mode with
  | singleShot => exact .bind accrues (works.measures _) fun _ => .pure accrues _
  | serialLoop => exact .bind accrues (works.serve accrues) fun _ => .pure accrues _

end Rig

/-! ## Sessions with a rig -/

namespace Session.Rigging

variable {Event : Type}

structure Scene.IntervenesWithin (scene : Scene World Event)
    (related : World → World → Prop) : Prop where
  drain : ∀ world, related world (scene.drain world).2
  feed : ∀ deliveries world, related world (scene.feed deliveries world)
  setEndless : ∀ endless world, related world (scene.setEndless endless world)

def afterSteps (scene : Scene World Event) (rig : Rig World) (steps : List Step)
    (world : World) : World :=
  steps.foldl (fun world step => (take scene rig step world).2) world

def afterRun (scene : Scene World Event) (settings : Settings) (steps : List Step)
    (world : World) : World :=
  match ending (Rig.setUp settings scene.board scene.workload) world with
  | (.ok rig, ready) => afterSteps scene rig steps ready
  | (.error _, stopped) => stopped

omit accrues in
theorem afterRun_of_ok {scene : Scene World Event} {settings : Settings} {rig : Rig World}
    {world ready : World}
    (setUp : Rig.setUp settings scene.board scene.workload world = .ok rig ready)
    (steps : List Step) :
    afterRun scene settings steps world = afterSteps scene rig steps ready := by
  simp only [afterRun, ending, setUp]

omit accrues in
theorem afterRun_of_error {scene : Scene World Event} {settings : Settings} {stop : Stop}
    {world stopped : World}
    (setUp : Rig.setUp settings scene.board scene.workload world = .error stop stopped)
    (steps : List Step) :
    afterRun scene settings steps world = stopped := by
  simp only [afterRun, ending, setUp]

private theorem observeTimes_related {activity : Activity (Link capacity World) Result}
    (stays : StaysWithin (InvImage related Link.world) activity)
    {drain : Link capacity World → List Event × _}
    (drains : ∀ link, related link.world (drain link).2.world) (times : Nat)
    (link : Link capacity World) :
    related link.world (observeTimes drain activity times link).2.world := by
  induction times generalizing link with
  | zero => exact accrues.refl _
  | succ times induction =>
      exact accrues.trans (stays link) (accrues.trans (drains _) (induction _))

variable {scene : Scene World Event} (intervenes : scene.IntervenesWithin related)
  {rig : Rig World} (works : rig.WorksWithin related)
include intervenes

private theorem observeEndless_related {action : Action World Result}
    (stays : StaysWithin related action) (world : World) :
    related world (observeEndless scene action world).2 := by
  have acted := accrues.trans (intervenes.setEndless true world) (stays _)
  exact accrues.trans acted
    (accrues.trans (intervenes.setEndless false _) (intervenes.drain _))

include works

private theorem take_related (step : Step) (world : World) :
    related world (take scene rig step world).2 := by
  cases step with
  | mode => exact accrues.refl world
  | settings => exact accrues.refl world
  | feed deliveries => exact intervenes.feed deliveries world
  | measureOnce => exact accrues.trans (works.measures _ world) (intervenes.drain _)
  | run => exact observeEndless_related accrues intervenes (works.run accrues) world
  | serve => exact observeEndless_related accrues intervenes (works.serve accrues) world
  | serveOne times =>
      simp only [take]
      cases registered : rig.responder with
      | error error => exact intervenes.drain world
      | ok responder =>
          have serves : StaysWithin (InvImage related Link.world)
              (responder.serveOne rig.port : Activity (Rig.Connection World) Outcome) :=
            Responder.serveOne_staysWithin accrues works.calls
              (works.handles accrues registered)
          exact observeTimes_related accrues serves (fun link =>
            intervenes.drain link.world) times (.fresh world)

/-- Over any steps with a rig, a relation holds that the parts of the rig stay within. -/
theorem afterSteps_related (steps : List Step) (world : World) :
    related world (afterSteps scene rig steps world) := by
  induction steps generalizing world with
  | nil => exact accrues.refl world
  | cons step steps induction =>
      exact accrues.trans (take_related accrues intervenes works step world) (induction _)

end Session.Rigging

end TriggerBench
