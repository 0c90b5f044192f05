import TriggerBench.Action

/-! The results of a list of steps, each with what was logged since the last report. -/

namespace TriggerBench.Session

structure Logged (Event Result : Type) where
  result : Result
  log : List Event

def ending {Reason State Result : Type} (activity : EStateM Reason State Result)
    (state : State) : Except Reason Result × State :=
  match activity state with
  | .ok result after => (.ok result, after)
  | .error reason after => (.error reason, after)

def report {Event State Result : Type} (drain : State → List Event × State)
    (result : Result) (state : State) : Logged Event Result × State :=
  match drain state with
  | (log, drained) => ({ result, log }, drained)

def observe {Event Reason State Result : Type} (drain : State → List Event × State)
    (activity : EStateM Reason State Result) (state : State) :
    Logged Event (Except Reason Result) × State :=
  match ending activity state with
  | (result, after) => report drain result after

def observeTimes {Event Reason State Result : Type} (drain : State → List Event × State)
    (activity : EStateM Reason State Result) :
    (times : Nat) → State → List (Logged Event (Except Reason Result)) × State
  | 0, state => ([], state)
  | times + 1, state =>
      match observe drain activity state with
      | (first, after) =>
          match observeTimes drain activity times after with
          | (rest, final) => (first :: rest, final)

def answers {Step State Answer : Type} (take : Step → State → Answer × State) :
    List Step → State → List Answer
  | [], _ => []
  | step :: rest, state =>
      match take step state with
      | (answer, after) => answer :: answers take rest after

end TriggerBench.Session
