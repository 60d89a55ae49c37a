import BreadMind.Flow.Events

namespace BreadMind
namespace Flow

/-!
# Executing a step in a worker

The dispatcher sends a task with the flow, the step, the tool and the
arguments, and nothing else.  The worker which executes the task publishes
what became of it; publishing is best effort and never changes the outcome
of the tool.
-/

structure StepTask where
  flowId : UUID
  stepId : StepId
  tool : Json
  args : Json

def CeleryStepDispatcher.payload (flowId : UUID) (stepId : StepId) (tool args : Json) : StepTask :=
  { flowId, stepId, tool, args := args.orEmpty }

/-- What came of running the tool: its result, or the type name and the text
of the exception. -/
inductive ToolOutcome where
  | returned (result : Json) (durationMs : Int)
  | raised (typeName message : String)

variable (task : StepTask)

def stepStartedEvent : FlowEvent :=
  { flowId := task.flowId, eventType := .stepStarted, actor := .worker
    payload := { stepId := some task.stepId } }

def stepOutcomeEvent : ToolOutcome -> FlowEvent
  | .returned result durationMs =>
    { flowId := task.flowId, eventType := .stepCompleted, actor := .worker
      payload := { stepId := some task.stepId, result := some result,
                   durationMs := some durationMs } }
  | .raised typeName message =>
    { flowId := task.flowId, eventType := .stepFailed, actor := .worker
      payload := { stepId := some task.stepId, attempt := some (.ok 1),
                   error := some (typeName ++ ": " ++ message) } }

/-- The events which `execute_flow_step` publishes.  `publishes` tells for
each event whether the worker has a bus and publishing on it succeeds. -/
def executeFlowStep (outcome : ToolOutcome) (publishes : FlowEvent -> Bool) : List FlowEvent :=
  [stepStartedEvent task, stepOutcomeEvent task outcome].filter publishes

end Flow
end BreadMind
