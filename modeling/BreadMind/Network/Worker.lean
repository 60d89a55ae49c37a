import BreadMind.Execution.Dict
import BreadMind.Network.Protocol

namespace BreadMind
namespace Network

open Execution

/-!
# The worker

A worker runs the tools which the commander assigns to it and reports the
results.  While it has no connection it queues them, and sends the queue as one
message when it is told to.  Running a tool and sending a message both wait, so
each handler comes in parts here, one for every stretch between two waits.
-/

inductive WorkerState where
  | starting
  | registering
  | idle
  | active
  | offline
  | syncing
  | draining

structure WorkerRole where
  name : String
  blocked : List String

structure Worker where
  agentId : String
  connected : Bool := false
  state : WorkerState := .starting
  roles : Dict String WorkerRole := []
  offlineQueue : List TaskResult := []
  taskHistory : Dict String TaskResult := []

inductive ToolEnd where
  | returned (success : Bool) (output : String)
  | raised (text : String)

namespace Worker

variable (worker : Worker)

def isToolBlocked (tool : String) : Bool :=
  worker.roles.any fun entry => entry.2.blocked.contains tool

def blockedResult (taskId tool : String) : TaskResult :=
  ⟨taskId, "failure", "Tool '" ++ tool ++ "' is blocked by role policy", none⟩

def toolResult (taskId : String) (ended : ToolEnd) (durationMs : Int) : TaskResult :=
  match ended with
  | .returned success output =>
    ⟨taskId, if success then "success" else "failure", output, some durationMs⟩
  | .raised text => ⟨taskId, "failure", text, some durationMs⟩

/-- The end of `_handle_task_assign`: the result is noted, and either there is a
message to send or the result is queued. -/
def report (result : TaskResult) : Option Payload × Worker :=
  let noted := { worker with taskHistory := Dict.set result.taskId result worker.taskHistory }
  if worker.connected then (some (.taskResult result), noted)
  else (none, { noted with offlineQueue := worker.offlineQueue ++ [result] })

/-- The message of `sync_offline_queue`. -/
def syncMessage : Payload := .sync worker.offlineQueue

/-- What `sync_offline_queue` does behind its send, which without a connection
has done nothing. -/
def syncDone : Worker := { worker with offlineQueue := [], state := .active }

def handleRoleUpdate (role : WorkerRole) : Worker :=
  if role.name = "" then worker else { worker with roles := Dict.set role.name role worker.roles }

def handleCommand (action : String) : Worker :=
  if action = "decommission" then { worker with state := .draining } else worker

end Worker

end Network
end BreadMind
