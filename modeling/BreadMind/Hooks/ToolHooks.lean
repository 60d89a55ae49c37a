import BreadMind.Hooks.Chain

namespace BreadMind
namespace Hooks

open Execution

/-!
# The hooks of the tools

A hook of a tool answers with a result of its own kind.  The runner picks the
hooks whose pattern fits the tool, and runs them as a chain: a result becomes a
decision, and what a hook of the chain raises before a tool becomes a BLOCK.
-/

inductive HookAction where
  | proceed
  | block
  | modify

structure ToolHookResult where
  action : HookAction := .proceed
  modifiedInput : Option (Dict String Json) := none
  additionalContext : String := ""
  blockReason : String := ""

inductive ToolHookType where
  | preToolUse
  | postToolUse
  deriving DecidableEq

inductive HookHandlerType where
  | command
  | prompt
  | agent

/-- A hook of the tools.  The handler has the name of the tool and its arguments;
it may raise, and it may return something that is no result. -/
structure ToolHookConfig where
  name : String
  hookType : ToolHookType
  toolPattern : String
  handler : String -> Dict String Json -> Except PyError (Option ToolHookResult)
  priority : Int := 0
  handlerType : HookHandlerType := .command

namespace ToolHookConfig

/-- `_invoke_hook`: what a prompt or an agent raises is only written to the log. -/
def invoke (config : ToolHookConfig) (toolName : String) (arguments : Dict String Json) :
    Except PyError (Option ToolHookResult) :=
  match config.handlerType, config.handler toolName arguments with
  | .command, answer => answer
  | _, .error _ => .ok (some {})
  | _, .ok result => .ok result

def matchesTool (config : ToolHookConfig) (toolName : String) : Bool :=
  AgentLoop.fnmatch toolName config.toolPattern

end ToolHookConfig

def decisionOf (arguments : Dict String Json) : Option ToolHookResult -> HookDecision
  | none => {}
  | some result =>
    match result.action, result.modifiedInput with
    | .block, _ => { kind := .block, reason := result.blockReason }
    | .modify, some input =>
      { kind := .modify
        patch := [("args", .obj (overlay arguments input))]
        context := .str result.additionalContext }
    | _, _ => { context := .str result.additionalContext }

def payloadName (payload : HookPayload) : String :=
  match payload.data.lookup "tool_name" with
  | some (.str name) => name
  | _ => ""

def payloadArguments (payload : HookPayload) : Dict String Json :=
  match payload.data.lookup "args" with
  | some (.obj fields) => fields
  | _ => []

/-- `_wrapped`, before a tool runs. -/
def wrapped (config : ToolHookConfig) (payload : HookPayload) : Except PyError HookDecision :=
  if config.toolPattern ≠ "" ∧ config.matchesTool (payloadName payload) = false then .ok {}
  else do
    let result <- config.invoke (payloadName payload) (payloadArguments payload)
    pure (decisionOf (payloadArguments payload) result)

def failureDecision (event : HookEvent) (reason : String) : HookDecision :=
  if event.policy.blockable then { kind := .block, reason := reason } else {}

/-- The reason of a Python hook which raised; one that takes too long raises `TimeoutError`. -/
def failureReason (name : String) (error : PyError) : String :=
  if error.typeName = "TimeoutError" then "hook '" ++ name ++ "' timeout after 5.0s"
  else "hook '" ++ name ++ "' error: " ++ error.text

def pythonHookRun (name : String) (event : HookEvent)
    (handler : HookPayload -> Except PyError HookDecision) (payload : HookPayload) : HookDecision :=
  match handler payload with
  | .ok decision => { decision with hookId := name }
  | .error error => { failureDecision event (failureReason name error) with hookId := name }

/-- `tool_hook_config_to_python_hook`, for the hooks before a tool. -/
def toPythonHook (config : ToolHookConfig) : HookHandler where
  name := config.name
  priority := config.priority
  run := fun payload => .ok (pythonHookRun config.name .preToolUse (wrapped config) payload)

def chainResult (decision : HookDecision) (final : HookPayload) : ToolHookResult :=
  let context := match decision.context with
    | .str text => text
    | _ => ""
  match decision.kind with
  | .block => { action := .block, blockReason := decision.reason }
  | .modify =>
    let arguments := match decision.patch.lookup "args" with
      | some (.obj fields) => fields
      | _ => payloadArguments final
    { action := .modify, modifiedInput := some arguments, additionalContext := context }
  | _ => { additionalContext := context }

def runLegacyPreChain (isWord : Char -> Bool) (configs : List ToolHookConfig) (toolName : String)
    (arguments : Dict String Json) : Except PyError ToolHookResult := do
  let result <- HookChain.run isWord { event := .preToolUse, handlers := configs.map toPythonHook }
    { event := .preToolUse, data := [("tool_name", .str toolName), ("args", .obj arguments)] }
  pure (chainResult result.1 result.2)

def matchingHooks (hooks : List ToolHookConfig) (toolName : String) (hookType : ToolHookType) :
    List ToolHookConfig :=
  byPriority ToolHookConfig.priority
    (hooks.filter fun hook => decide (hook.hookType = hookType) && hook.matchesTool toolName)

def runPreHooks (isWord : Char -> Bool) (hooks : List ToolHookConfig) (toolName : String)
    (arguments : Dict String Json) : Except PyError ToolHookResult :=
  match matchingHooks hooks toolName .preToolUse with
  | [] => .ok {}
  | first :: rest => runLegacyPreChain isWord (first :: rest) toolName arguments

/-! ## What the hooks of a tool say together -/

/-- The call is blocked, or it may run, with its arguments rewritten or not. -/
inductive PreVerdict where
  | blocked (reason : String)
  | passed (arguments : Dict String Json) (rewritten : Bool)

/-- Each hook has the arguments as the ones before it have rewritten them; the
first that blocks or raises decides. -/
def preVerdict (toolName : String) : List ToolHookConfig -> Dict String Json -> Bool -> PreVerdict
  | [], arguments, rewritten => .passed arguments rewritten
  | hook :: rest, arguments, rewritten =>
    match hook.invoke toolName arguments with
    | .error error => .blocked (failureReason hook.name error)
    | .ok none => preVerdict toolName rest arguments rewritten
    | .ok (some result) =>
      match result.action, result.modifiedInput with
      | .block, _ => .blocked result.blockReason
      | .modify, some input => preVerdict toolName rest (overlay arguments input) true
      | _, _ => preVerdict toolName rest arguments rewritten

/-- What the hooks that are registered say about a call. -/
def hooksVerdict (hooks : List ToolHookConfig) (toolName : String) (arguments : Dict String Json) :
    PreVerdict :=
  preVerdict toolName (matchingHooks hooks toolName .preToolUse) arguments false

def Tells (decision : HookDecision) : PreVerdict -> Prop
  | .blocked reason => decision.kind = .block ∧ decision.reason = reason
  | .passed arguments true => decision.kind = .modify ∧
      decision.patch.lookup "args" = some (.obj arguments)
  | .passed _ false => decision.kind = .proceed

section Chains

variable {isWord : Char -> Bool} {toolName : String}

def toolPayload (toolName : String) (arguments : Dict String Json) : HookPayload where
  event := .preToolUse
  data := [("tool_name", .str toolName), ("args", .obj arguments)]

def toolState (toolName : String) (arguments : Dict String Json) (rewritten : Bool)
    (contexts : List String) : ChainState where
  patch := if rewritten then [("args", .obj arguments)] else []
  contexts := contexts.map Json.str
  payload := toolPayload toolName arguments

theorem toPythonHook_run {hook : ToolHookConfig} (fits : hook.matchesTool toolName = true)
    (arguments : Dict String Json) : (toPythonHook hook).run (toolPayload toolName arguments) =
      .ok (match hook.invoke toolName arguments with
        | .ok result => { decisionOf arguments result with hookId := hook.name }
        | .error error =>
          { kind := .block, reason := failureReason hook.name error, hookId := hook.name }) := by
  have handled : wrapped hook (toolPayload toolName arguments) =
      (hook.invoke toolName arguments).map (decisionOf arguments) := by
    unfold wrapped
    rw [if_neg]
    · change (hook.invoke toolName arguments >>= _) = _
      cases hook.invoke toolName arguments <;> rfl
    · intro other
      rw [show payloadName (toolPayload toolName arguments) = toolName from rfl, fits] at other
      cases other.2
  unfold toPythonHook pythonHookRun
  dsimp only
  rw [handled]
  cases hook.invoke toolName arguments <;> rfl

def withContext (contexts : List String) (context : String) : List String :=
  if context = "" then contexts else contexts ++ [context]

theorem take_context {arguments : Dict String Json} {rewritten : Bool} {contexts : List String}
    (context hookId : String) :
    (toolState toolName arguments rewritten contexts).take HookEvent.preToolUse.policy
        { context := .str context, hookId := hookId } =
      toolState toolName arguments rewritten (withContext contexts context) := by
  by_cases empty : context = ""
  · subst empty
    rfl
  · have kept : (Json.str context).truthy = true := decide_eq_true empty
    simp [toolState, ChainState.take, withContext, empty, kept, overlay]

theorem take_rewriting {arguments input : Dict String Json} {rewritten : Bool}
    {contexts : List String} (context hookId : String) :
    (toolState toolName arguments rewritten contexts).take HookEvent.preToolUse.policy
        { kind := .modify, patch := [("args", .obj input)], context := .str context,
          hookId := hookId } =
      toolState toolName input true (withContext contexts context) := by
  by_cases empty : context = ""
  · subst empty
    cases rewritten <;> rfl
  · have kept : (Json.str context).truthy = true := decide_eq_true empty
    cases rewritten <;>
      simp [toolState, ChainState.take, withContext, empty, kept, overlay, Dict.set, toolPayload,
        HookEvent.policy]

/-- Induction on the hooks that are left: the chain decides as they say together. -/
theorem runFrom_tells (hooks : List ToolHookConfig)
    (fits : ∀ hook ∈ hooks, hook.matchesTool toolName = true)
    (arguments : Dict String Json) (rewritten : Bool) (contexts : List String) : ∃ decision final,
      HookChain.runFrom isWord HookEvent.preToolUse.policy (hooks.map toPythonHook)
          (toolState toolName arguments rewritten contexts) = .ok (decision, final) ∧
        Tells decision (preVerdict toolName hooks arguments rewritten) := by
  induction hooks generalizing arguments rewritten contexts with
  | nil =>
    have joined : joinContexts (contexts.map Json.str) = .ok ("\n".intercalate contexts) :=
      joinContexts_ok.mpr ⟨contexts, rfl, rfl⟩
    refine ⟨_, _, bind_eq_ok.mpr ⟨_, joined, rfl⟩, ?_⟩
    cases rewritten <;> simp [Tells, preVerdict, toolState, finalDecision]
  | cons hook rest ih =>
    have later := ih fun other member => fits other (List.mem_cons_of_mem hook member)
    have decided := toPythonHook_run (fits hook List.mem_cons_self) arguments
    rw [List.map_cons]
    unfold preVerdict
    cases answer : hook.invoke toolName arguments with
    | error error =>
      rw [answer] at decided
      refine ⟨{ kind := .block, reason := failureReason hook.name error, hookId := hook.name },
        toolPayload toolName arguments, ?_, rfl, rfl⟩
      rw [runFrom_decided rfl decided]
      rfl
    | ok result =>
      rw [answer] at decided
      rw [runFrom_decided rfl decided]
      have goes (context : String) : ∃ decision final,
          HookChain.runFrom isWord HookEvent.preToolUse.policy (rest.map toPythonHook)
            ((toolState toolName arguments rewritten contexts).take HookEvent.preToolUse.policy
              { context := .str context, hookId := hook.name }) = .ok (decision, final) ∧
            Tells decision (preVerdict toolName rest arguments rewritten) := by
        rw [take_context]
        exact later arguments rewritten _
      rcases result with _ | ⟨action, input, context, reason⟩
      · exact goes ""
      · cases action with
        | proceed => exact goes context
        | block =>
          exact ⟨{ kind := .block, reason := reason, hookId := hook.name },
            toolPayload toolName arguments, rfl, rfl, rfl⟩
        | modify =>
          cases input with
          | none => exact goes context
          | some input =>
            have onward := later (overlay arguments input) true (withContext contexts context)
            rw [← @take_rewriting toolName arguments (overlay arguments input) rewritten contexts context
              hook.name] at onward
            exact onward

def ToolHookResult.Tells (result : ToolHookResult) : PreVerdict -> Prop
  | .blocked reason => result.action = .block ∧ result.blockReason = reason
  | .passed arguments true => result.action = .modify ∧ result.modifiedInput = some arguments
  | .passed _ false => result.action = .proceed

theorem chainResult_tells {decision : HookDecision} {final : HookPayload} {verdict : PreVerdict}
    (tells : Tells decision verdict) : (chainResult decision final).Tells verdict := by
  unfold chainResult
  cases verdict with
  | blocked reason =>
    rw [tells.1]
    exact ⟨rfl, tells.2⟩
  | passed arguments rewritten =>
    cases rewritten with
    | true =>
      rw [tells.1, tells.2]
      exact ⟨rfl, rfl⟩
    | false =>
      rw [show decision.kind = .proceed from tells]
      rfl

theorem runPreHooks_tells (isWord : Char -> Bool) (hooks : List ToolHookConfig) (toolName : String)
    (arguments : Dict String Json) :
    ∃ result, runPreHooks isWord hooks toolName arguments = .ok result ∧
      result.Tells (hooksVerdict hooks toolName arguments) := by
  have inOrder : InPriorityOrder ToolHookConfig.priority
      (hooks.filter fun hook => decide (hook.hookType = .preToolUse) && hook.matchesTool toolName)
      (matchingHooks hooks toolName .preToolUse) := byPriority_inOrder
  have fits : ∀ hook ∈ matchingHooks hooks toolName .preToolUse,
      hook.matchesTool toolName = true := by
    intro hook member
    have chosen := (List.mem_filter.mp (inOrder.same.mem_iff.mp member)).2
    exact ((Bool.and_eq_true _ _).mp chosen).2
  unfold runPreHooks hooksVerdict
  generalize matchingHooks hooks toolName .preToolUse = configs at inOrder fits
  cases configs with
  | nil => exact ⟨{}, rfl, rfl⟩
  | cons first rest =>
    have sorted : byPriority HookHandler.priority ((first :: rest).map toPythonHook) =
        (first :: rest).map toPythonHook :=
      byPriority_of_descending (List.pairwise_map.mpr inOrder.descending)
    rcases @runFrom_tells isWord toolName (first :: rest) fits arguments false [] with
      ⟨decision, final, returned, tells⟩
    refine ⟨chainResult decision final, ?_, chainResult_tells tells⟩
    unfold runLegacyPreChain HookChain.run HookChain.sorted
    dsimp only
    rw [sorted]
    exact bind_eq_ok.mpr ⟨(decision, final), returned, rfl⟩

end Chains

theorem overlay_ne_nil {data : Dict String Json} (patch : Dict String Json) (some : data ≠ []) :
    overlay data patch ≠ [] := by
  induction patch generalizing data with
  | nil => exact some
  | cons entry rest ih =>
    refine @ih (Dict.set entry.1 entry.2 data) ?_
    cases data with
    | nil => exact absurd rfl some
    | cons first others =>
      unfold Dict.set
      split
      · exact List.cons_ne_nil _ _
      · exact List.cons_ne_nil _ _

theorem preVerdict_passed {toolName : String} {hooks : List ToolHookConfig}
    {arguments input : Dict String Json} {before after : Bool}
    (passed : preVerdict toolName hooks arguments before = .passed input after) :
    (after = false -> before = false ∧ input = arguments) ∧ (arguments ≠ [] -> input ≠ []) := by
  induction hooks generalizing arguments before with
  | nil =>
    cases passed
    exact ⟨fun unwritten => ⟨unwritten, rfl⟩, id⟩
  | cons hook rest ih =>
    unfold preVerdict at passed
    split at passed
    · cases passed
    · exact ih passed
    · split at passed
      · cases passed
      · have later := ih passed
        refine ⟨fun unwritten => ?_, fun some => later.2 (overlay_ne_nil _ some)⟩
        cases (later.1 unwritten).1
      · exact ih passed

end Hooks
end BreadMind
