import TriggerBench.Responder

/-! # Running activities one after the other

How a sequence of activities runs, and activities that do the same before and after a
change of their state.
-/

namespace TriggerBench

variable {Reason State Result Next : Type}

section Running

variable {first : EStateM Reason State Result} {next : Result → EStateM Reason State Next}
  {state after : State}

theorem bind_of_ok {result : Result} (ran : first state = .ok result after) :
    (first >>= next) state = next result after := by
  change EStateM.bind first next state = _
  simp only [EStateM.bind, ran]

theorem bind_of_error {reason : Reason} (ran : first state = .error reason after) :
    (first >>= next) state = .error reason after := by
  change EStateM.bind first next state = _
  simp only [EStateM.bind, ran]

theorem ofAction_of_ok {action : Action State Result} {result : Result}
    (ran : action state = .ok result after) :
    Activity.ofAction action state = .ok result after := by
  simp only [Activity.ofAction, ran]

theorem ofAction_of_error {action : Action State Result} {stop : Stop}
    (ran : action state = .error stop after) :
    Activity.ofAction action state = .error (.stopped stop) after := by
  simp only [Activity.ofAction, ran]

theorem ok_of_bind {next : Result → EStateM Reason State Next} {final : Next}
    (ran : (first >>= next) state = .ok final after) :
    ∃ result middle, first state = .ok result middle ∧
      next result middle = .ok final after := by
  cases outcome : first state with
  | ok result middle =>
      rw [bind_of_ok outcome] at ran
      exact ⟨result, middle, rfl, ran⟩
  | error reason middle =>
      rw [bind_of_error outcome] at ran
      cases ran

theorem error_of_bind {next : Result → EStateM Reason State Next} {reason : Reason}
    (ran : (first >>= next) state = .error reason after) :
    first state = .error reason after ∨ ∃ result middle, first state = .ok result middle ∧
      next result middle = .error reason after := by
  cases outcome : first state with
  | ok result middle =>
      rw [bind_of_ok outcome] at ran
      exact .inr ⟨result, middle, rfl, ran⟩
  | error found middle =>
      rw [bind_of_error outcome, EStateM.Result.error.injEq] at ran
      exact .inl (by rw [ran.1, ran.2])

theorem error_of_ofAction {action : Action State Result} {reason : Interruption}
    (ran : Activity.ofAction action state = .error reason after) :
    ∃ stop, reason = .stopped stop ∧ action state = .error stop after := by
  rw [Activity.ofAction] at ran
  cases outcome : action state with
  | ok result middle =>
      simp only [outcome] at ran
      cases ran
  | error stop middle =>
      simp only [outcome, EStateM.Result.error.injEq] at ran
      exact ⟨stop, ran.1.symm, by rw [ran.2]⟩

theorem get_bind {next : State → EStateM Reason State Next} :
    (get >>= next) state = next state state :=
  rfl

theorem ok_of_lift {Whole : Type} {component : Component Whole State}
    {whole final : Whole} {result : Result}
    (ran : component.lift first whole = .ok result final) :
    ∃ part, first (component.get whole) = .ok result part ∧
      final = component.set part whole := by
  rw [Component.lift] at ran
  cases outcome : first (component.get whole) with
  | ok found part =>
      simp only [outcome, EStateM.Result.ok.injEq] at ran
      exact ⟨part, by rw [ran.1], ran.2.symm⟩
  | error reason part =>
      simp only [outcome] at ran
      cases ran

theorem error_of_lift {Whole : Type} {component : Component Whole State}
    {whole final : Whole} {reason : Reason}
    (ran : component.lift first whole = .error reason final) :
    ∃ part, first (component.get whole) = .error reason part ∧
      final = component.set part whole := by
  rw [Component.lift] at ran
  cases outcome : first (component.get whole) with
  | ok found part =>
      simp only [outcome] at ran
      cases ran
  | error found part =>
      simp only [outcome, EStateM.Result.error.injEq] at ran
      exact ⟨part, by rw [ran.1], ran.2.symm⟩

end Running

/-! ## Properties that sequences inherit -/

/-- A property that results and reasons have on their own, and that a sequence of
activities inherits from its parts. -/
structure Compositional
    (holds : ∀ {Reason Result : Type}, EStateM Reason State Result → Prop) : Prop where
  pure : ∀ {Reason Result : Type} (result : Result),
    holds (pure result : EStateM Reason State Result)
  throw : ∀ {Reason Result : Type} (reason : Reason),
    holds (throw reason : EStateM Reason State Result)
  bind :
    ∀ {Reason Result Next : Type} {first : EStateM Reason State Result} {next : Result →
      EStateM Reason State Next}, holds first → (∀ result, holds (next result)) →
    holds (first >>= next)
  ofAction : ∀ {Result : Type} {action : Action State Result}, holds action →
    holds (Activity.ofAction action)

/-! ## Activities that a change of the state passes through -/

def changed (change : State → State) :
    EStateM.Result Reason State Result → EStateM.Result Reason State Result
  | .ok result after => .ok result (change after)
  | .error reason after => .error reason (change after)

/-- What one activity does in a changed state is what another one does before the
change. -/
def Mirrors (change : State → State)
    (mirror activity : EStateM Reason State Result) : Prop :=
  ∀ state, mirror (change state) = changed change (activity state)

namespace Mirrors

variable {change : State → State}

theorem bind {firstMirror first : EStateM Reason State Result}
    {nextMirror next : Result → EStateM Reason State Next}
    (firstMirrors : Mirrors change firstMirror first)
    (nextMirrors : ∀ result, Mirrors change (nextMirror result) (next result)) :
    Mirrors change (firstMirror >>= nextMirror) (first >>= next) := by
  intro state
  have ran := firstMirrors state
  cases outcome : first state with
  | ok result after =>
      rw [outcome] at ran
      rw [bind_of_ok ran, bind_of_ok outcome]
      exact nextMirrors result after
  | error reason after =>
      rw [outcome] at ran
      rw [bind_of_error ran, bind_of_error outcome]
      rfl

theorem ofAction {mirror action : Action State Result}
    (mirrors : Mirrors change mirror action) :
    Mirrors change (Activity.ofAction mirror) (Activity.ofAction action) := by
  intro state
  simp only [Activity.ofAction, mirrors state]
  cases action state <;> rfl

end Mirrors

def Commutes (change : State → State) (activity : EStateM Reason State Result) : Prop :=
  ∀ state, activity (change state) = changed change (activity state)

namespace Commutes

variable {change : State → State}

theorem pure (result : Result) :
    Commutes change (pure result : EStateM Reason State Result) :=
  fun _ => rfl

theorem throw (reason : Reason) :
    Commutes change (throw reason : EStateM Reason State Result) :=
  fun _ => rfl

theorem bind {first : EStateM Reason State Result}
    {next : Result → EStateM Reason State Next} (firstCommutes : Commutes change first)
    (nextCommutes : ∀ result, Commutes change (next result)) :
    Commutes change (first >>= next) :=
  Mirrors.bind firstCommutes nextCommutes

theorem ofAction {action : Action State Result} (commutes : Commutes change action) :
    Commutes change (Activity.ofAction action) :=
  Mirrors.ofAction commutes

theorem compositional (change : State → State) : Compositional (Commutes change) where
  pure := Commutes.pure
  throw := Commutes.throw
  bind := Commutes.bind
  ofAction := Commutes.ofAction

end Commutes

end TriggerBench
