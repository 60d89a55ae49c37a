import BreadMind.Base.Values

namespace BreadMind
namespace Flow

/-!
# Flow events

An event carries its flow, its kind, its payload and the party which
published it.  The source's payload is a dictionary; here it is the record of
the keys which some modelled handler reads or writes, and a key that is
absent is `none`.  A handler reading a required key which is absent fails as
the dictionary access does.
-/

inductive EventType where
  | flowCreated
  | dagProposed
  | dagMutated
  | dagMutationRejected
  | stepQueued
  | stepStarted
  | stepProgress
  | stepCompleted
  | stepFailed
  | recoveryAttempted
  | escalationRaised
  | userIntervention
  | flowPaused
  | flowResumed
  | flowCancelled
  | flowCompleted
  | flowFailed
  deriving DecidableEq

inductive FlowActor where
  | agent
  | worker
  | user
  | scheduler
  | recovery
  | engine

abbrev StepId := String

/-- One entry of a `steps`, `added` or `modified` list before it is read.
A numeric key holds what `int(...)` makes of the entry's value, so that an
entry with a non-numeric value keeps the exception it causes. -/
structure StepDict where
  id : Option StepId := none
  title : Option String := none
  tool : Option Json := none
  args : Option Json := none
  dependsOn : Option (List StepId) := none
  timeoutSeconds : Option (Except PyError Int) := none
  maxAttempts : Option (Except PyError Int) := none

structure MutationDict where
  added : Option (List StepDict) := none
  removed : Option (List StepId) := none
  modified : Option (List StepDict) := none

structure Payload extends MutationDict where
  stepId : Option StepId := none
  steps : Option (List StepDict) := none
  error : Option String := none
  attempt : Option (Except PyError Int) := none
  reason : Option String := none
  fromStep : Option StepId := none
  totalSteps : Option Nat := none
  mutation : Option MutationDict := none
  strategy : Option String := none
  delay : Option Rat := none
  context : Option Json := none
  result : Option Json := none
  durationMs : Option Int := none

structure FlowEvent where
  flowId : UUID
  eventType : EventType
  payload : Payload := {}
  actor : FlowActor

def EventType.terminal : EventType -> Bool
  | .flowCompleted => true
  | .flowFailed => true
  | _ => false

end Flow
end BreadMind
