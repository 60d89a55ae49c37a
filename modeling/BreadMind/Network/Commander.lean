import BreadMind.Execution.Dict
import BreadMind.Network.Protocol

namespace BreadMind
namespace Network

open Execution

/-!
# The commander

The hub keeps the registry of agents, one tracker for each connection, and the
results of tasks.  Roles and certificates of agents are left out, since no
handler reads them.  What the commander calls outside of itself is kept as two
lists: the results given to `on_task_result`, and the requests passed on to the
language model.
-/

inductive AgentStatus where
  | registering
  | idle
  | active
  | offline
  | syncing
  | draining
  | removed

structure AgentInfo where
  agentId : String
  host : String
  status : AgentStatus := .registering
  environment : Json := .obj []
  lastHeartbeat : Option Int := none
  lastMetrics : Json := .obj []

abbrev Websocket := Nat

structure Commander where
  agents : Dict String AgentInfo := []
  connections : Dict String Websocket := []
  seqTrackers : Dict String SequenceTracker := []
  completedTasks : Dict String TaskResult := []
  reported : List (String × TaskResult) := []
  proxied : List MessageEnvelope := []
  /-- The messages which a handler has taken; kept beside the code. -/
  acted : List MessageEnvelope := []

namespace Commander

variable (commander : Commander) (agentId : String)

def addConnection (ws : Websocket) : Commander :=
  { commander with
    connections := Dict.set agentId ws commander.connections
    seqTrackers := Dict.set agentId {} commander.seqTrackers }

def removeConnection : Commander :=
  { commander with
    connections := Dict.pop agentId commander.connections
    seqTrackers := Dict.pop agentId commander.seqTrackers }

def updateAgent (change : AgentInfo -> AgentInfo) : Commander :=
  match commander.agents.lookup agentId with
  | none => commander
  | some agent => { commander with agents := Dict.set agentId (change agent) commander.agents }

def handleHeartbeat (host : String) (environment metrics : Json)
    (ws : Websocket) (agentId : String) (now : Int) : Commander :=
  let registered := match commander.agents.lookup agentId with
    | some _ => commander
    | none =>
      { commander with
        agents := Dict.set agentId
          { agentId := agentId, host := host, environment := environment.orEmpty }
          commander.agents }.addConnection agentId ws
  registered.updateAgent agentId fun agent =>
    { agent with lastHeartbeat := some now, lastMetrics := metrics }

def handleTaskResult (result : TaskResult) (agentId : String) : Commander :=
  { commander with
    completedTasks := Dict.set result.taskId result commander.completedTasks
    reported := commander.reported ++ [(agentId, result)] }

/-- One round of the loop in `_handle_sync`. -/
def syncOne (completed : Dict String TaskResult) (result : TaskResult) : Dict String TaskResult :=
  match completed.lookup result.taskId with
  | none => Dict.set result.taskId result completed
  | some _ => completed

def handleSync (results : List TaskResult) (agentId : String) : Commander :=
  { commander with completedTasks := results.foldl syncOne commander.completedTasks }.updateAgent
    agentId fun agent => { agent with status := .active }

def handles : MessageType -> Bool
  | .heartbeat | .taskResult | .llmRequest | .sync => true
  | _ => false

def acts (message : MessageEnvelope) : Commander :=
  { commander with acted := commander.acted ++ [message] }

def handleMessage (message : MessageEnvelope) (ws : Websocket)
    (agentId : String) (now : Int) : Commander :=
  match message.payload with
  | .heartbeat host environment metrics =>
    (commander.acts message).handleHeartbeat host environment metrics ws agentId now
  | .taskResult result => (commander.acts message).handleTaskResult result agentId
  | .llmRequest _ _ =>
    { commander.acts message with proxied := commander.proxied ++ [message] }
  | .sync results => (commander.acts message).handleSync results agentId
  | _ => commander

end Commander

end Network
end BreadMind
