import BreadMind.Execution.Machine
import BreadMind.Flow.Dag

namespace BreadMind
namespace Flow

/-!
# The flow engine

The engine handles one event at a time.  While it handles an event it calls
two collaborators, the bus and the step dispatcher, and either call may
raise; a `World` fixes for one handled event which of them do.  Whatever a
handler did before an exception stays done: the loop around it logs the
exception and takes the next event.

Each call is logged together with the state of the flow when the engine
turned to it.  For a launch this is the state in which the scheduler picked
the step, before it marks the step as queued for that very launch.
-/

inductive Call where
  | publish (event : FlowEvent)
  | dispatch (flowId : UUID) (stepId : StepId) (tool : Json) (args : Json)

/-- What the surroundings contribute to handling one event: the interpreter
frames left for validation, and whether the next call raises, given the calls
made for this event so far. -/
structure World where
  frames : Nat := 1000
  raises : List Call -> Call -> Option PyError := fun _ _ => none

structure FlowState where
  dag : Option ValidDAG := none
  completed : Finset StepId := ∅
  failed : Finset StepId := ∅
  queued : Finset StepId := ∅
  running : Finset StepId := ∅
  finalized : Bool := false

namespace FlowState

variable (st : FlowState)

/-- Every step of the DAG completed and nothing queued or running.  The
comparison with the completed set is an equality, in both directions. -/
def allDone : Bool :=
  match st.dag with
  | none => false
  | some valid =>
    decide (st.completed = valid.dag.ids.toFinset) &&
      (decide (st.running = ∅) && decide (st.queued = ∅))

variable (sid : StepId)

def start : FlowState :=
  { st with queued := st.queued.erase sid, running := insert sid st.running }

def complete : FlowState :=
  { st with
    running := st.running.erase sid
    queued := st.queued.erase sid
    completed := insert sid st.completed }

def fail : FlowState :=
  { st with
    running := st.running.erase sid
    queued := st.queued.erase sid
    failed := insert sid st.failed }

def requeue : FlowState :=
  { st with queued := insert sid st.queued, failed := st.failed.erase sid }

/-- Forget the removed steps and take over the mutated DAG. -/
def mutate (removed : Finset StepId) (valid : ValidDAG) : FlowState :=
  { dag := some valid
    completed := st.completed \ removed
    failed := st.failed \ removed
    queued := st.queued \ removed
    running := st.running \ removed
    finalized := st.finalized }

def queue : FlowState :=
  { st with queued := insert sid st.queued }

def finalize : FlowState :=
  { st with finalized := true }

end FlowState

/-- A call and the state of the flow when the engine turned to it. -/
structure LogEntry where
  state : FlowState
  call : Call

structure Handling where
  state : FlowState
  log : List LogEntry := []
  raised : Option PyError := none

namespace Handling

def perform (world : World) (picked : FlowState) (call : Call) (h : Handling) : Handling :=
  { h with
    log := h.log ++ [⟨picked, call⟩]
    raised := world.raises (h.log.map LogEntry.call) call }

def publish (world : World) (event : FlowEvent) (h : Handling) : Handling :=
  h.perform world h.state (.publish event)

end Handling

variable (flowId : UUID)

def stepQueuedEvent (sid : StepId) : FlowEvent :=
  { flowId, eventType := .stepQueued, payload := { stepId := some sid }, actor := .engine }

def dispatchFailedEvent (sid : StepId) (failure : PyError) : FlowEvent :=
  { flowId, eventType := .stepFailed, actor := .engine
    payload := { stepId := some sid, error := some failure.text, attempt := some (.ok 1) } }

variable (world : World)

/-- Launch one step: mark it, announce it and dispatch it.  A dispatch that
raises is announced as a failed step, while an announcement that raises ends
the handling of the event. -/
def launch (flowId : UUID) (step : Step) (h : Handling) : Handling :=
  let picked := h.state
  let announced := ({ h with state := picked.queue step.id }).perform world picked
    (.publish (stepQueuedEvent flowId step.id))
  match announced.raised with
  | some _ => announced
  | none =>
    let sent := announced.perform world picked (.dispatch flowId step.id step.tool step.args)
    match sent.raised with
    | none => sent
    | some failure => sent.publish world (dispatchFailedEvent flowId step.id failure)

def scheduleReady (world : World) (flowId : UUID) (dag : DAG) : List StepId -> Handling -> Handling
  | [], h => h
  | sid :: rest, h =>
    if h.raised.isSome then h
    else if sid ∈ h.state.queued ∨ sid ∈ h.state.running then
      scheduleReady world flowId dag rest h
    else
      match dag.steps.find? (fun s => s.id = sid) with
      | none => scheduleReady world flowId dag rest h
      | some step => scheduleReady world flowId dag rest (launch world flowId step h)

def scheduleNext (flowId : UUID) (h : Handling) : Handling :=
  match h.state.dag with
  | none => h
  | some valid => scheduleReady world flowId valid.dag (valid.dag.readySteps h.state.completed) h

variable (st : FlowState)

def flowCompletedEvent : FlowEvent :=
  { flowId, eventType := .flowCompleted, actor := .engine
    payload := { totalSteps := some ((st.dag.map (fun valid => valid.dag.steps.length)).getD 0) } }

variable (event : FlowEvent)

def flowFailedEvent : FlowEvent :=
  { flowId := event.flowId, eventType := .flowFailed, actor := .engine
    payload := { reason := some (event.payload.reason.getD "escalated")
                 fromStep := event.payload.stepId } }

def mutationRejectedEvent (failure : PyError) : FlowEvent :=
  { flowId := event.flowId, eventType := .dagMutationRejected, actor := .engine
    payload := { reason := some failure.text, mutation := some event.payload.toMutationDict } }

def FlowEvent.dagMutation : DAGMutation where
  added := event.payload.added.getD []
  removed := event.payload.removed.getD []
  modified := event.payload.modified.getD []

/-- `event.payload["step_id"]` and the rest of a branch that starts with it. -/
def withStepId (st : FlowState) (branch : StepId -> Handling) : Handling :=
  match event.payload.stepId with
  | none => { state := st, raised := some (.keyError "step_id") }
  | some sid => branch sid

def handle : Handling :=
  match event.eventType with
  | .dagProposed =>
    match DAG.fromPayload world.frames (event.payload.steps.getD []) with
    | .error failure => { state := st, raised := some failure }
    | .ok valid => scheduleNext world event.flowId { state := { st with dag := some valid } }
  | .stepStarted => withStepId event st fun sid => { state := st.start sid }
  | .stepCompleted => withStepId event st fun sid =>
    let done := st.complete sid
    if done.allDone && !done.finalized then
      Handling.publish world (flowCompletedEvent event.flowId done) { state := done.finalize }
    else scheduleNext world event.flowId { state := done }
  -- The failed step is left to the recovery controller.
  | .stepFailed => withStepId event st fun sid => { state := st.fail sid }
  | .escalationRaised =>
    if st.finalized then { state := st }
    else Handling.publish world (flowFailedEvent event) { state := st.finalize }
  | .dagMutated =>
    match st.dag with
    | none => { state := st }
    | some valid =>
      if st.finalized then { state := st }
      else
        match DAG.applyMutation world.frames valid.dag event.dagMutation with
        | .ok mutated =>
          scheduleNext world event.flowId
            { state := st.mutate event.dagMutation.removed.toFinset mutated }
        | .error (.dagValidationError message) =>
          Handling.publish world
            (mutationRejectedEvent event (.dagValidationError message)) { state := st }
        -- Only the validation error is caught; the others leave the handler.
        | .error failure => { state := st, raised := some failure }
  | .stepQueued => withStepId event st fun sid => { state := st.requeue sid }
  | _ => { state := st }

structure FlowEngine where
  states : UUID -> Option FlowState

namespace FlowEngine

variable (engine : FlowEngine)

def state (flowId : UUID) : FlowState :=
  (engine.states flowId).getD {}

variable (world : World) (event : FlowEvent)

/-- Handling one event stores the state of its flow, whether or not the
handler raised. -/
def handle : FlowEngine where
  states := Function.update engine.states event.flowId
    (some (Flow.handle world (engine.state event.flowId) event).state)

theorem state_handle_same : (engine.handle world event).state event.flowId =
      (Flow.handle world (engine.state event.flowId) event).state := by
  simp only [state, handle, Function.update_self, Option.getD_some]

theorem state_handle_other (flowId : UUID) (different : flowId ≠ event.flowId) :
    (engine.handle world event).state flowId = engine.state flowId := by
  simp only [state, handle, Function.update_of_ne different]

end FlowEngine

/-- The engine as a machine.  An input is one delivered event and the world
in which it is handled. -/
def engineMachine : Execution.Machine FlowEngine (World × FlowEvent) where
  initial := { states := fun _ => none }
  step := fun engine input => engine.handle input.1 input.2

/-! ## What handling an event can do -/

inductive Schedules (world : World) (st : FlowState) (event : FlowEvent) : FlowState -> Prop where
  | proposed {valid : ValidDAG} (kind : event.eventType = .dagProposed)
      (read : DAG.fromPayload world.frames (event.payload.steps.getD []) = .ok valid) :
      Schedules world st event { st with dag := some valid }
  | completed {sid : StepId} (kind : event.eventType = .stepCompleted)
      (named : event.payload.stepId = some sid)
      (unfinished : (st.complete sid).allDone = true -> st.finalized = true) :
      Schedules world st event (st.complete sid)
  | mutated {valid changed : ValidDAG} (kind : event.eventType = .dagMutated)
      (held : st.dag = some valid) (live : st.finalized = false)
      (applied : DAG.applyMutation world.frames valid.dag event.dagMutation = .ok changed) :
      Schedules world st event (st.mutate event.dagMutation.removed.toFinset changed)

inductive Finishes (st : FlowState) (event : FlowEvent) : FlowState -> FlowEvent -> Prop where
  | completed {sid : StepId} (kind : event.eventType = .stepCompleted)
      (named : event.payload.stepId = some sid)
      (done : (st.complete sid).allDone = true) (live : st.finalized = false) :
      Finishes st event (st.complete sid).finalize
        (flowCompletedEvent event.flowId (st.complete sid))
  | escalated (kind : event.eventType = .escalationRaised) (live : st.finalized = false) :
      Finishes st event st.finalize (flowFailedEvent event)

inductive Settles (st : FlowState) (event : FlowEvent) : FlowState -> Prop where
  | unchanged : Settles st event st
  | started {sid : StepId} (kind : event.eventType = .stepStarted)
      (named : event.payload.stepId = some sid) : Settles st event (st.start sid)
  | failed {sid : StepId} (kind : event.eventType = .stepFailed)
      (named : event.payload.stepId = some sid) : Settles st event (st.fail sid)
  | queued {sid : StepId} (kind : event.eventType = .stepQueued)
      (named : event.payload.stepId = some sid) : Settles st event (st.requeue sid)

inductive Handles (world : World) (st : FlowState) (event : FlowEvent) : Handling -> Prop where
  | schedules {entered : FlowState} (enters : Schedules world st event entered) :
      Handles world st event (scheduleNext world event.flowId { state := entered })
  | finishes {ended : FlowState} {terminal : FlowEvent}
      (ends : Finishes st event ended terminal) :
      Handles world st event (Handling.publish world terminal { state := ended })
  | rejects {message : String} (kind : event.eventType = .dagMutated) :
      Handles world st event (Handling.publish world
        (mutationRejectedEvent event (.dagValidationError message)) { state := st })
  | settles {settled : FlowState} {raised : Option PyError}
      (stays : Settles st event settled) :
      Handles world st event { state := settled, raised := raised }

theorem handles : Handles world st event (handle world st event) := by
  unfold handle
  cases kind : event.eventType with
  | dagProposed =>
    cases read : DAG.fromPayload world.frames (event.payload.steps.getD []) with
    | error failure => exact .settles .unchanged
    | ok valid => exact .schedules (.proposed kind read)
  | stepStarted =>
    cases named : event.payload.stepId with
    | none => simp only [withStepId, named]; exact .settles .unchanged
    | some sid => simp only [withStepId, named]; exact .settles (.started kind named)
  | stepCompleted =>
    cases named : event.payload.stepId with
    | none => simp only [withStepId, named]; exact .settles .unchanged
    | some sid =>
      simp only [withStepId, named]
      cases done : (st.complete sid).allDone <;> cases live : st.finalized
      · exact .schedules (.completed kind named (by rw [done]; intro impossible; cases impossible))
      · exact .schedules (.completed kind named (by rw [done]; intro impossible; cases impossible))
      · have open_ : (st.complete sid).finalized = false := live
        rw [open_]
        exact .finishes (.completed kind named done live)
      · have closed : (st.complete sid).finalized = true := live
        rw [closed]
        exact .schedules (.completed kind named (fun _ => live))
  | stepFailed =>
    cases named : event.payload.stepId with
    | none => simp only [withStepId, named]; exact .settles .unchanged
    | some sid => simp only [withStepId, named]; exact .settles (.failed kind named)
  | escalationRaised =>
    cases live : st.finalized with
    | true => exact .settles .unchanged
    | false => exact .finishes (.escalated kind live)
  | dagMutated =>
    cases held : st.dag with
    | none => exact .settles .unchanged
    | some valid =>
      cases live : st.finalized with
      | true => exact .settles .unchanged
      | false =>
        cases applied : DAG.applyMutation world.frames valid.dag event.dagMutation with
        | ok changed =>
          simp only [applied]
          exact .schedules (.mutated kind held live applied)
        | error failure =>
          simp only [applied]
          cases failure with
          | dagValidationError message => exact .rejects kind
          | _ => exact .settles .unchanged
  | stepQueued =>
    cases named : event.payload.stepId with
    | none => simp only [withStepId, named]; exact .settles .unchanged
    | some sid => simp only [withStepId, named]; exact .settles (.queued kind named)
  | _ => exact .settles .unchanged

end Flow
end BreadMind
