import BreadMind.Base.Values
import BreadMind.Execution.Dict

namespace BreadMind
namespace Hooks

open Execution

/-!
# Hook events, payloads and decisions

What a hook may decide depends on its event.  A payload carries JSON values and
is passed from hook to hook.
-/

inductive HookEvent where
  | sessionStart
  | sessionEnd
  | userPromptSubmit
  | preToolUse
  | postToolUse
  | stop
  | subagentStop
  | notification
  | preCompact
  | messengerReceived
  | messengerSending
  | safetyGuardTriggered
  | workerDispatched
  | workerCompleted
  | llmRequest
  | llmResponse
  | memoryWritten
  | pluginLoaded
  | pluginUnloaded
  | credentialAccessed
  deriving DecidableEq

namespace HookEvent

def all : List HookEvent :=
  [sessionStart, sessionEnd, userPromptSubmit, preToolUse, postToolUse, stop, subagentStop,
    notification, preCompact, messengerReceived, messengerSending, safetyGuardTriggered,
    workerDispatched, workerCompleted, llmRequest, llmResponse, memoryWritten, pluginLoaded,
    pluginUnloaded, credentialAccessed]

def value : HookEvent -> String
  | sessionStart => "session_start"
  | sessionEnd => "session_end"
  | userPromptSubmit => "user_prompt_submit"
  | preToolUse => "pre_tool_use"
  | postToolUse => "post_tool_use"
  | stop => "stop"
  | subagentStop => "subagent_stop"
  | notification => "notification"
  | preCompact => "pre_compact"
  | messengerReceived => "messenger_received"
  | messengerSending => "messenger_sending"
  | safetyGuardTriggered => "safety_guard_triggered"
  | workerDispatched => "worker_dispatched"
  | workerCompleted => "worker_completed"
  | llmRequest => "llm_request"
  | llmResponse => "llm_response"
  | memoryWritten => "memory_written"
  | pluginLoaded => "plugin_loaded"
  | pluginUnloaded => "plugin_unloaded"
  | credentialAccessed => "credential_accessed"

/-- `HookEvent(key)`. -/
def ofValue (key : String) : Option HookEvent :=
  all.find? fun event => event.value == key

end HookEvent

structure EventPolicy where
  blockable : Bool := false
  mutable : Bool := false
  replyAllowed : Bool := false
  rerouteAllowed : Bool := false

def HookEvent.policy : HookEvent -> EventPolicy
  | userPromptSubmit | preToolUse | messengerReceived => ⟨true, true, true, true⟩
  | postToolUse | llmResponse => ⟨false, true, false, false⟩
  | preCompact | messengerSending => ⟨true, true, false, false⟩
  | safetyGuardTriggered | llmRequest => ⟨true, true, true, false⟩
  | sessionStart | sessionEnd | stop | subagentStop | notification | workerDispatched
  | workerCompleted | memoryWritten | pluginLoaded | pluginUnloaded | credentialAccessed => {}

structure HookPayload where
  event : HookEvent
  data : Dict String Json := []
  depth : Nat := 0
  visited : List String := []

inductive DecisionKind where
  | proceed
  | block
  | modify
  | reply
  | reroute
  deriving DecidableEq

/-- A decision.  A hook that runs a command reads the target and the context out
of what the command prints, so they may be any JSON values. -/
structure HookDecision where
  kind : DecisionKind := .proceed
  reason : String := ""
  patch : Dict String Json := []
  reply : Json := .null
  rerouteTarget : Json := .null
  rerouteArgs : Option (Dict String Json) := none
  context : Json := .str ""
  hookId : String := ""

/-- `data.update(patch)`; `{**data, **patch}` has the same entries. -/
def overlay (data patch : Dict String Json) : Dict String Json :=
  patch.foldl (fun table entry => Dict.set entry.1 entry.2 table) data

end Hooks
end BreadMind
