import BreadMind.AgentLoop.Guard
import BreadMind.Execution.Programs

namespace BreadMind
namespace AgentLoop

open Agent (ToolCall)
open Execution
open Execution.Program (attempt onFirst ofExcept)

/-!
# The message loop

`handle_message` and `handle_message_stream` talk to the model in turns.  A turn
in which the model asks for tools checks the calls, asks for approvals and
hooks, runs what is left and puts the results under the messages; an answer
without calls ends the loop.

The collaborators answer out of a world of their own, which every call may
change, so the worlds stand for everything that they can do.  The prompt, the
attachments and the costs are left out.
-/

inductive Role where
  | system
  | user
  | assistant
  | tool
  deriving DecidableEq

structure Message where
  role : Role
  content : Option String := none
  toolCalls : List ToolCall := []
  toolCallId : Option String := none

structure LLMResponse where
  content : Option String
  toolCalls : List ToolCall
  totalTokens : Nat

structure ToolResult where
  success : Bool
  output : String
  error : Option String := none

structure AgentContext where
  user : String
  channel : String
  sessionId : String
  resume : Bool := false

structure ExecutionContext where
  user : String
  channel : String
  sessionId : String
  autonomy : String

structure AgentResponse where
  content : String
  toolCallsCount : Nat
  tokensUsed : Nat

inductive StreamEvent where
  | text (chunk : String)
  | toolStart (tools : List String)
  | toolEnd (results : List (String × Bool))
  | compact
  | error (message : String)
  | done (tokens toolCalls : Nat)

abbrev Answer (World Value : Type) := World -> Except String Value × World

structure ApprovalResponse where
  approved : Bool
  modifiedArguments : Option Json := none

structure HookResult where
  passed : Bool
  error : Option String := none

structure HookRunner (World : Type) where
  preToolUse : String -> Json -> Answer World HookResult
  postToolUse : String -> Json -> String -> Answer World HookResult

/-- A registry runs the calls one by one unless it has `execute_batch`. -/
inductive ToolExecution (World : Type) where
  | batch (executeBatch : List ToolCall -> ExecutionContext -> Answer World (List ToolResult))
  | single (execute : ToolCall -> ExecutionContext -> Answer World ToolResult)

structure ToolRegistry (World Tools : Type) where
  -- the schemas, with and without deferred tools
  getSchemas : Bool -> Tools
  execution : ToolExecution World
  -- `_merge_resolved_tools`, with what has been resolved before kept in the world
  mergeResolvedTools : Tools -> Json -> Answer World Tools

/-- `chatStream` gives the chunks that came, and the failure that broke them off. -/
structure Provider (World Tools : Type) where
  chat : List Message -> Tools -> Answer World LLMResponse
  chatStream : Option (List Message -> World -> (List String × Option String) × World)
  toolSearch : Bool

structure AutoCompactor (World : Type) where
  shouldCompact : List Message -> Bool
  compact : List Message -> Option Nat -> Answer World (List Message)

structure ConversationMeta where
  sessionId : String
  user : String
  channel : String
  title : String
  messageCount : Nat
  totalTokens : Nat

structure ConversationStore (World : Type) where
  loadConversation : String -> Answer World (Option (List Message))
  saveConversation : String -> List Message -> ConversationMeta -> Answer World Unit

structure MessageLoopAgent (World Tools : Type) where
  text : PythonText
  provider : Provider World Tools
  toolRegistry : ToolRegistry World Tools
  safety : SafetyGuard
  maxTurns : Nat
  -- what the sanitizer and the attachments leave of a message
  prepareMessage : String -> String
  systemContent : String
  hookRunner : Option (HookRunner World)
  autoCompactor : Option (AutoCompactor World)
  outputLimiter : Option (ToolResult -> ToolResult)
  conversationStore : Option (ConversationStore World)
  approvalHandler : Option (String -> Json -> String -> Answer World ApprovalResponse)
  auditLog : Option (AuditEntry -> Answer World Unit)

/-- What a loop has done, and the answers which it was given on the way.  The
calls of the model are counted from one. -/
inductive LoopEffect where
  | chatFailed (failure : String)
  | compacting (level : Option Nat) (messages : List Message)
  | asked (calls : List ToolCall)
  | checked (number : Nat) (name : String) (arguments : Json) (verdict : SafetyVerdict)
  | answered (number : Nat) (arguments : Json) (response : ApprovalResponse)
  | executed (number : Nat) (call : ToolCall)
  | turnEnded
  | streamed (content : Option String) (chunks : List String) (failure : Option String)
  | persisting (messages : List Message) (totalTokens : Nat)

structure LoopState (World : Type) where
  world : World
  effects : List LoopEffect

/-- The local variables of a loop. -/
structure LoopVars (Tools : Type) where
  messages : List Message
  tools : Tools
  totalToolCalls : Nat
  totalTokens : Nat

variable {World Tools Value : Type}

abbrev LoopProgram (World Value : Type) := Program (LoopState World) String Value

variable (vars : LoopVars Tools)

def LoopVars.push (message : Message) : LoopVars Tools :=
  { vars with messages := vars.messages ++ [message] }

def LoopVars.tell (call : ToolCall) (content : String) : LoopVars Tools :=
  vars.push { role := .tool, content := some content, toolCallId := some call.id }

def LoopVars.respond (content : String) : AgentResponse :=
  ⟨content, vars.totalToolCalls, vars.totalTokens⟩

def ask (answer : Answer World Value) : LoopProgram World Value :=
  ExceptT.mk fun state =>
    let answered := answer state.world
    (answered.1, { state with world := answered.2 })

def note (effect : LoopEffect) : LoopProgram World Unit :=
  modify fun state => { state with effects := state.effects ++ [effect] }

namespace MessageLoopAgent

variable (agent : MessageLoopAgent World Tools)

/-! ## The tool phase, which both loops have -/

def checkCall (number : Nat) (call : ToolCall) : LoopProgram World SafetyVerdict := do
  let verdict := agent.safety.check agent.text call.name call.arguments
  note (.checked number call.name call.arguments verdict)
  match agent.auditLog with
  | none => pure verdict
  | some record => do
    ask (record (verdict.audited call.name call.arguments))
    pure verdict

def approveCall (number : Nat) (call : ToolCall) (verdict : SafetyVerdict) :
    LoopProgram World (Option ToolCall) :=
  match if verdict.needsApproval then agent.approvalHandler else none with
  | none => pure (some call)
  | some requestApproval => do
    let response ← ask (requestApproval call.name call.arguments verdict.reason)
    note (.answered number call.arguments response)
    if response.approved then
      pure (some { call with arguments := response.modifiedArguments.getD call.arguments })
    else pure none

def runPreHook (call : ToolCall) : LoopProgram World (Option String) :=
  match agent.hookRunner with
  | none => pure none
  | some hooks => do
    let result ← ask (hooks.preToolUse call.name call.arguments)
    if result.passed then pure none
    else
      pure (some (match result.error with
        | none | some "" => "Pre-tool hook denied"
        | some error => error))

variable (vars : LoopVars Tools)

def gateCall (call : ToolCall) : LoopProgram World (LoopVars Tools × Option (Nat × ToolCall)) := do
  let number := vars.totalToolCalls + 1
  let counted := { vars with totalToolCalls := number }
  let verdict ← agent.checkCall number call
  if verdict.allowed then
    match ← agent.approveCall number call verdict with
    | none => pure (counted.tell call ("User denied: " ++ call.name), none)
    | some approved => do
      match ← agent.runPreHook approved with
      | some reason => pure (counted.tell call ("Blocked by hook: " ++ reason), none)
      | none => pure (counted, some (number, approved))
  else pure (counted.tell call ("Blocked: " ++ verdict.reason), none)

/-- Phase 1: the calls which are left, with their numbers. -/
def gateCalls : LoopVars Tools -> List ToolCall ->
    LoopProgram World (LoopVars Tools × List (Nat × ToolCall))
  | vars, [] => pure (vars, [])
  | vars, call :: rest => do
    let gated ← agent.gateCall vars call
    let others ← gateCalls gated.1 rest
    pure (others.1, gated.2.toList ++ others.2)

def noteExecuted : List (Nat × ToolCall) -> LoopProgram World Unit
  | [] => pure ()
  | (number, call) :: rest => do
    note (.executed number call)
    noteExecuted rest

def executeEach (execute : ToolCall -> Answer World ToolResult) :
    List (Nat × ToolCall) -> LoopProgram World (List ToolResult)
  | [] => pure []
  | (number, call) :: rest => do
    note (.executed number call)
    let result ← ask (execute call)
    let others ← executeEach execute rest
    pure (result :: others)

variable (ctx : AgentContext)

/-- Phase 2: the calls with their results. -/
def executeCalls (allowedCalls : List (Nat × ToolCall)) :
    LoopProgram World (List (ToolCall × ToolResult)) :=
  let execCtx : ExecutionContext := ⟨ctx.user, ctx.channel, ctx.sessionId, "auto"⟩
  let calls := allowedCalls.map Prod.snd
  if allowedCalls.isEmpty then pure []
  else
    match agent.toolRegistry.execution with
    | .batch executeBatch => do
      noteExecuted allowedCalls
      let results ← ask (executeBatch calls execCtx)
      pure (calls.zip results)
    | .single execute => do
      let results ← executeEach (fun call => execute call execCtx) allowedCalls
      pure (calls.zip results)

def resultContent (result : ToolResult) : String :=
  if result.success then result.output else "Error: " ++ result.error.getD "None"

def mergedTools (call : ToolCall) (result : ToolResult) : LoopProgram World Tools :=
  if call.name = "tool_search" ∧ result.success = true ∧ agent.provider.toolSearch = true then
    ask (agent.toolRegistry.mergeResolvedTools vars.tools call.arguments)
  else pure vars.tools

def runPostHook (call : ToolCall) (content : String) : LoopProgram World Unit :=
  match agent.hookRunner with
  | none => pure ()
  | some hooks => do
    let _ ← ask (hooks.postToolUse call.name call.arguments content)
    pure ()

def limitToolResult (result : ToolResult) : ToolResult :=
  match agent.outputLimiter with
  | none => result
  | some limit => limit result

def collectResult (call : ToolCall) (result : ToolResult) :
    LoopProgram World (LoopVars Tools × (String × Bool)) := do
  let limited := agent.limitToolResult result
  let tools ← agent.mergedTools vars call limited
  agent.runPostHook call (resultContent limited)
  pure ({ vars with tools := tools }.tell call (resultContent limited),
    (call.name, limited.success))

def collectResults : LoopVars Tools -> List (ToolCall × ToolResult) ->
    LoopProgram World (LoopVars Tools × List (String × Bool))
  | vars, [] => pure (vars, [])
  | vars, (call, result) :: rest => do
    let collected ← agent.collectResult vars call result
    let others ← collectResults collected.1 rest
    pure (others.1, collected.2 :: others.2)

def runTools (vars : LoopVars Tools) (response : LLMResponse) :
    LoopProgram World (LoopVars Tools × List (String × Bool)) := do
  let asked := vars.push
    { role := .assistant, content := response.content, toolCalls := response.toolCalls }
  note (.asked response.toolCalls)
  let gated ← agent.gateCalls asked response.toolCalls
  let results ← agent.executeCalls ctx gated.2
  let collected ← agent.collectResults gated.1 results
  note .turnEnded
  pure collected

def restoreConversation : LoopProgram World (Option (List Message)) :=
  match if ctx.resume then agent.conversationStore else none with
  | none => pure none
  | some store => ask (store.loadConversation ctx.sessionId)

variable (message : String)

/-- Both loops, up to their first turn. -/
def openConversation (ctx : AgentContext) : LoopProgram World (LoopVars Tools) := do
  let restored ← agent.restoreConversation ctx
  let messages := match restored with
    | none | some [] => [{ role := .system, content := some agent.systemContent }]
    | some (first :: rest) => first :: rest
  let user : Message := { role := .user, content := some (agent.prepareMessage message) }
  pure ⟨messages ++ [user], agent.toolRegistry.getSchemas agent.provider.toolSearch, 0, 0⟩

def conversationTitle (messages : List Message) : String :=
  match messages.find? fun message => decide (message.role = .user) && message.content.any (· != "") with
  | some message => String.ofList ((message.content.getD "").toList.take 50)
  | none => ""

/-- `_persist_conversation`; a failure of the store is logged only. -/
def persistConversation (vars : LoopVars Tools) : LoopProgram World Unit := do
  note (.persisting vars.messages vars.totalTokens)
  match agent.conversationStore with
  | none => pure ()
  | some store => do
    let _ ← attempt (ask (store.saveConversation ctx.sessionId vars.messages
      { sessionId := ctx.sessionId, user := ctx.user, channel := ctx.channel
        title := conversationTitle vars.messages
        messageCount := vars.messages.length, totalTokens := vars.totalTokens }))
    pure ()

def compactMessages (compactor : AutoCompactor World) (vars : LoopVars Tools) (level : Option Nat) :
    LoopProgram World (LoopVars Tools) := do
  note (.compacting level vars.messages)
  let messages ← ask (compactor.compact vars.messages level)
  pure { vars with messages := messages }

def autoCompact : LoopProgram World (LoopVars Tools × Bool) :=
  match agent.autoCompactor with
  | none => pure (vars, false)
  | some compactor =>
    if compactor.shouldCompact vars.messages then do
      let compacted ← compactMessages compactor vars none
      pure (compacted, true)
    else pure (vars, false)

def chat : LoopProgram World (LoopVars Tools × LLMResponse) := do
  match ← attempt (ask (agent.provider.chat vars.messages vars.tools)) with
  | .ok response =>
    pure ({ vars with totalTokens := vars.totalTokens + response.totalTokens }, response)
  | .error failure => do
    note (.chatFailed failure)
    throw failure

/-- The words by which a failure is taken for an overflow of the context. -/
def overflows (failure : String) : Bool :=
  let error := (agent.text.lower failure).toList
  containsText error "too long".toList || containsText error "context".toList ||
    containsText error "token".toList

/-- A call of the model which survives an overflow, if there is a compactor.
Otherwise the loop ends with a text. -/
def chatRecovering : LoopProgram World (Except String (LoopVars Tools × LLMResponse)) := do
  match ← attempt (agent.chat vars) with
  | .ok answered => pure (.ok answered)
  | .error failure =>
    if agent.overflows failure then
      match agent.autoCompactor with
      | none => pure (.error "Context overflow: message history too large.")
      | some compactor => do
        let compacted ← compactMessages compactor vars (some 4)
        match ← attempt (agent.chat compacted) with
        | .ok answered => pure (.ok answered)
        | .error _ =>
          pure (.error "Context overflow: unable to recover after emergency compaction.")
    else throw failure

def afterChat (goOn : LoopVars Tools -> LoopProgram World AgentResponse) (vars : LoopVars Tools) :
    Except String (LoopVars Tools × LLMResponse) -> LoopProgram World AgentResponse
  | .error text => pure (vars.respond text)
  | .ok (counted, response) =>
    if response.toolCalls.isEmpty then do
      let final := counted.push { role := .assistant, content := response.content }
      agent.persistConversation ctx final
      pure (final.respond (response.content.getD ""))
    else do
      let ran ← agent.runTools ctx counted response
      goOn ran.1

def turns (ctx : AgentContext) : Nat -> LoopVars Tools -> LoopProgram World AgentResponse
  | 0, vars => do
    agent.persistConversation ctx vars
    pure (vars.respond "Max turns reached.")
  | left + 1, vars => do
    let compacted ← agent.autoCompact vars
    let outcome ← agent.chatRecovering compacted.1
    agent.afterChat ctx (turns ctx left) compacted.1 outcome

def handleMessage (ctx : AgentContext) : LoopProgram World AgentResponse := do
  let vars ← agent.openConversation message ctx
  agent.turns ctx agent.maxTurns vars

abbrev StreamProgram (World Value : Type) :=
  Program (LoopState World × List StreamEvent) String Value

def emit (events : List StreamEvent) : StreamProgram World Unit :=
  modify fun state => (state.1, state.2 ++ events)

def wholeText : Option String -> List StreamEvent
  | none | some "" => []
  | some content => [.text content]

def streamAnswer (messages : List Message) (content : Option String) : StreamProgram World Unit :=
  match agent.provider.chatStream with
  | none => emit (wholeText content)
  | some chatStream => do
    let streamed ← onFirst (ask fun world =>
      let answered := chatStream messages world
      (.ok answered.1, answered.2))
    onFirst (note (.streamed content streamed.1 streamed.2))
    emit (streamed.1.map .text)
    match streamed.2 with
    | none => pure ()
    | some _ => emit (wholeText content)

def streamTurns (ctx : AgentContext) : Nat -> LoopVars Tools -> StreamProgram World Unit
  | 0, vars => do
    onFirst (agent.persistConversation ctx vars)
    emit [.text "Max turns reached.", .done vars.totalTokens vars.totalToolCalls]
  | left + 1, vars => do
    let compacted ← onFirst (agent.autoCompact vars)
    emit (if compacted.2 then [.compact] else [])
    let answered ← onFirst (agent.chat compacted.1)
    if answered.2.toolCalls.isEmpty then do
      let final := answered.1.push { role := .assistant, content := answered.2.content }
      agent.streamAnswer answered.1.messages answered.2.content
      onFirst (agent.persistConversation ctx final)
      emit [.done final.totalTokens final.totalToolCalls]
    else do
      emit [.toolStart (answered.2.toolCalls.map ToolCall.name)]
      let ran ← onFirst (agent.runTools ctx answered.1 answered.2)
      emit [.toolEnd ran.2]
      streamTurns ctx left ran.1

def handleMessageStream (ctx : AgentContext) : StreamProgram World Unit := do
  let vars ← onFirst (agent.openConversation message ctx)
  tryCatch (agent.streamTurns ctx agent.maxTurns vars) (fun failure => emit [.error failure])

variable (world : World)

def effects (message : String) (ctx : AgentContext) : List LoopEffect :=
  ((agent.handleMessage message ctx).run.run ⟨world, []⟩).2.effects

def streamEffects (message : String) (ctx : AgentContext) : List LoopEffect :=
  ((agent.handleMessageStream message ctx).run.run (⟨world, []⟩, [])).2.1.effects

def streamEvents (message : String) (ctx : AgentContext) : List StreamEvent :=
  ((agent.handleMessageStream message ctx).run.run (⟨world, []⟩, [])).2.2

end MessageLoopAgent

end AgentLoop
end BreadMind
