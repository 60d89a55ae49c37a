import BreadMind.Agent.Safety
import BreadMind.Execution.Checks
import BreadMind.Execution.Programs
import Mathlib.Data.List.Infix
import Mathlib.Data.List.Perm.Basic

namespace BreadMind
namespace Agent

open Execution
open Execution.Program

/-!
# The tool executor

The calls of one answer of the model are handled in two phases.  First each
call is checked, and one which may not run is answered at once.  Then the
others run in parallel, and their results are recorded one after the other:
in the audit log, in the messages and in the working memory.

What the tools and the callbacks do is given with the call.  A callback that
raises has recorded nothing.  What a running call raises becomes its report only
as far as `except Exception` goes, and only behind the reading of its arguments;
anything else ends the whole phase without a single result.
-/

structure ToolMessage where
  content : String
  toolCallId : String
  name : String
  attachments : List String := []

structure PendingApproval where
  tool : String
  args : Json
  user : String
  channel : String
  status : String

inductive ExecutorAudit where
  | safetyCheck (user channel tool verdict : String)
  | approvalRequest (user channel tool status : String)
  | toolCall (user channel tool : String) (arguments : Json) (result : String) (success : Bool)

inductive PreHook where
  | proceed
  | block (reason : String)
  | modify (input : Json)

/-- What happens to one call, stage by stage; a time-out raises `TimeoutError`.
An empty list of validation errors also stands for a tool that is not validated,
and an empty context for a post-hook that adds none.  A call that is cancelled
raises `CancelledError` at the stage it has come to. -/
structure ExecutionAnswers where
  sandbox : Except PyError ToolResult
  preHook : Except PyError PreHook
  validation : Except PyError (List (String × String))
  run : Except PyError ToolResult
  gap : Except PyError String
  postHook : Except PyError String

structure Handling where
  call : ToolCall
  now : Int
  approvalId : String
  execution : ExecutionAnswers
  logSafetyCheck : Option PyError
  logApprovalRequest : Option PyError
  publishApproval : Option PyError
  logToolCall : Option PyError
  onNewTool : Option PyError
  addMessage : Option PyError

structure ExecutorSettings where
  toolTimeout : Nat
  sandbox : Bool
  hookRunner : Bool
  validator : Bool

/-- `ToolExecutionContext`; the flags tell which collaborators there are, and
the functions clean a text for the memory and take attachments out of one. -/
structure ExecutionContext where
  user : String
  channel : String
  workingMemory : Bool
  auditLogger : Bool
  toolGapDetector : Bool
  onNewToolDetected : Bool
  sanitizeText : String -> String
  processBrowserResult : String -> String × List String

structure ExecutorState where
  messages : List ToolMessage
  memory : List ToolMessage
  auditLog : List ExecutorAudit
  approvals : List (String × PendingApproval)
  guard : SafetyGuard

abbrev Executing (Value : Type) := Program ExecutorState PyError Value

/-! ## Running one call -/

/-- How a call ended: what the tool returned, if it did, and what is reported. -/
structure Reported where
  result : Option ToolResult
  ok : Bool
  text : String

def pyBool : Bool -> String
  | true => "True"
  | false => "False"

def Reported.output (reported : Reported) : String :=
  "[success=" ++ pyBool reported.ok ++ "] " ++ reported.text

def Reported.toolSuccess (reported : Reported) : Bool :=
  reported.result.any ToolResult.success

def failed (result : Option ToolResult) (timeout : Nat) (error : PyError) : Reported where
  result := result
  ok := false
  text :=
    if error.typeName = "TimeoutError" then
      "Tool execution timed out after " ++ toString timeout ++ "s."
    else "Tool execution error: " ++ error.text

/-- `dict(arguments) if arguments else {}`. -/
def effectiveArguments (arguments : Json) : Except PyError Json :=
  if arguments.truthy then arguments.toDict else .ok (.obj [])

/-- `tc_arguments.get("long_running", False)`, a text being read as a flag. -/
def isLong (arguments : Json) : Except PyError Bool :=
  (arguments.get "long_running").map fun
    | some (.str text) => ["true", "1", "yes"].contains text.toLower
    | some value => value.truthy
    | none => false

def callTimeout (settings : ExecutorSettings) (name : String) (arguments : Json) :
    Except PyError Nat :=
  if name = "code_delegate" then
    (isLong arguments).map fun long =>
      if long then settings.toolTimeout else max settings.toolTimeout 600
  else .ok settings.toolTimeout

def validationText (errors : List (String × String)) : String :=
  "; ".intercalate (errors.map fun error => error.1 ++ ": " ++ error.2)

/-- What is raised in the body of the `try`, with what is known by then. -/
structure Raised where
  result : Option ToolResult
  timeout : Nat
  error : PyError

def postHooked (settings : ExecutorSettings) (timeout : Nat) (execution : ExecutionAnswers)
    (result : ToolResult) : Except Raised Reported :=
  if settings.hookRunner then
    match execution.postHook with
    | .error error => .error ⟨some result, timeout, error⟩
    | .ok context =>
      .ok { result := some result, ok := result.success
            text := if context = "" then result.output
              else result.output ++ "\n[Hook context] " ++ context }
  else .ok { result := some result, ok := result.success, text := result.output }

/-- After the tool has returned: the search for a missing tool, and the post-hooks. -/
def concludeRun (settings : ExecutorSettings) (toolGapDetector : Bool) (timeout : Nat)
    (execution : ExecutionAnswers) (result : ToolResult) : Except Raised Reported :=
  if result.notFound && toolGapDetector then
    match execution.gap with
    | .ok message => .ok { result := some result, ok := false, text := message }
    | .error error =>
      if error.isException then postHooked settings timeout execution result
      else .error ⟨some result, timeout, error⟩
  else postHooked settings timeout execution result

/-- The arguments after the pre-hooks, or the reason for which they block the call. -/
def preHooked (settings : ExecutorSettings) (call : ToolCall) (execution : ExecutionAnswers) :
    Except PyError (Except String Json) :=
  if settings.hookRunner then
    match execution.preHook with
    | .error error => .error error
    | .ok (.block reason) => .ok (.error reason)
    | .ok (.modify input) => .ok (.ok (if input.truthy then input else call.arguments))
    | .ok .proceed => .ok (.ok call.arguments)
  else .ok (.ok call.arguments)

/-- The body of the `try`. -/
def attempt (settings : ExecutorSettings) (toolGapDetector : Bool) (call : ToolCall)
    (execution : ExecutionAnswers) : Except Raised Reported := do
  let raises := Raised.mk none settings.toolTimeout
  if settings.sandbox && call.name == "shell_exec" then
    let _ <- (call.arguments.get "command").mapError raises
    let result <- execution.sandbox.mapError raises
    return { result := some result, ok := result.success, text := result.output }
  else
    match <- (preHooked settings call execution).mapError raises with
    | .error reason => return { result := none, ok := false, text := "Blocked by hook: " ++ reason }
    | .ok arguments =>
      let _ <- (effectiveArguments arguments).mapError raises
      match <- (if settings.validator then execution.validation else .ok []).mapError raises with
      | first :: others =>
        return { result := none, ok := false
                 text := "Validation failed: " ++ validationText (first :: others) }
      | [] =>
        let timeout <- (callTimeout settings call.name arguments).mapError raises
        let result <- execution.run.mapError (Raised.mk none timeout)
        concludeRun settings toolGapDetector timeout execution result

def executeOne (settings : ExecutorSettings) (toolGapDetector : Bool) (call : ToolCall)
    (execution : ExecutionAnswers) : Except PyError Reported :=
  match effectiveArguments call.arguments with
  | .error error => .error error
  | .ok _ =>
    match attempt settings toolGapDetector call execution with
    | .ok reported => .ok reported
    | .error raised =>
      if raised.error.isException then .ok (failed raised.result raised.timeout raised.error)
      else .error raised.error

/-! ## The first phase -/

inductive CheckOutcome where
  | denied
  | awaiting
  | cooling
  | passes
  deriving DecidableEq

def isAutomated (channel : String) : Bool :=
  "system:".toList.isPrefixOf channel.toList || "monitoring:".toList.isPrefixOf channel.toList

/-- The decision of `_check_tool_call`, and the guard afterwards. -/
def checkOutcome (user channel : String) (guard : SafetyGuard) (name : String) (now : Int) :
    CheckOutcome × SafetyGuard :=
  match guard.check name user with
  | .deny => (.denied, guard)
  | .requireApproval => (.awaiting, guard)
  | .allow =>
    if isAutomated channel then
      let cooled := guard.checkCooldown (user ++ ":" ++ channel) name now
      (if cooled.1 then .passes else .cooling, cooled.2)
    else (.passes, guard)

variable (call : ToolCall)

def deniedMessage : ToolMessage where
  content := "[success=False] BLOCKED: " ++ call.name ++ " is in the blacklist."
  toolCallId := call.id
  name := call.name

def coolingMessage : ToolMessage where
  content := "[success=False] COOLDOWN: " ++ call.name ++
    " is in cooldown. Please wait before retrying."
  toolCallId := call.id
  name := call.name

def approvalMessage (approvalId : String) : ToolMessage where
  content := "[approval_required] Tool '" ++ call.name ++ "' requires approval. Approval ID: " ++
    approvalId ++ ". Ask the user to approve."
  toolCallId := call.id
  name := call.name

def callback (answer : Option PyError) : Executing PUnit :=
  match answer with
  | some error => throw error
  | none => pure ⟨⟩

def log (context : ExecutionContext) (answer : Option PyError) (entry : ExecutorAudit) :
    Executing PUnit := do
  if context.auditLogger then
    callback answer
    modify fun state => { state with auditLog := state.auditLog ++ [entry] }

def handleApproval (context : ExecutionContext) (handling : Handling) : Executing ToolMessage := do
  modify fun state => { state with
    approvals := (handling.approvalId,
      { tool := handling.call.name
        args := handling.call.arguments
        user := context.user
        channel := context.channel
        status := "pending" }) ::
      state.approvals.filter fun entry => entry.1 != handling.approvalId }
  log context handling.logApprovalRequest
    (.approvalRequest context.user context.channel handling.call.name "pending")
  callback handling.publishApproval
  pure (approvalMessage handling.call handling.approvalId)

/-- The answer to a call that has been decided upon, unless it may run. -/
def answerCheck (context : ExecutionContext) (handling : Handling) :
    CheckOutcome -> Executing (Option ToolMessage)
  | .denied => pure (some (deniedMessage handling.call))
  | .awaiting => do
    let message <- handleApproval context handling
    pure (some message)
  | .cooling => pure (some (coolingMessage handling.call))
  | .passes => pure none

def checkToolCall (context : ExecutionContext) (handling : Handling) :
    Executing (Option ToolMessage) := do
  let state <- get
  let checked := checkOutcome context.user context.channel state.guard handling.call.name handling.now
  log context handling.logSafetyCheck (.safetyCheck context.user context.channel
    handling.call.name (state.guard.check handling.call.name context.user).value)
  modify fun state => { state with guard := checked.2 }
  answerCheck context handling checked.1

def answer (context : ExecutionContext) (handling : Handling) (message stored : ToolMessage) :
    Executing PUnit := do
  modify fun state => { state with messages := state.messages ++ [message] }
  if context.workingMemory then
    callback handling.addMessage
    modify fun state => { state with memory := state.memory ++ [stored] }

def checkCalls (context : ExecutionContext) : List Handling -> Executing (List Handling)
  | [] => pure []
  | handling :: rest => do
    let message <- checkToolCall context handling
    match message with
    | some message =>
      answer context handling message message
      checkCalls context rest
    | none =>
      let others <- checkCalls context rest
      pure (handling :: others)

def successMarker : String := "[success=True]"

/-- `"[success=True]" in output`. -/
def marked (output : String) : Bool :=
  decide (successMarker.toList <:+: output.toList)

def isBrowserTool (name : String) : Bool :=
  "browser".toList.isPrefixOf name.toList

def resultMessage (context : ExecutionContext) (call : ToolCall) (output : String) : ToolMessage :=
  let processed := context.processBrowserResult output
  if isBrowserTool call.name && !processed.2.isEmpty then
    { content := processed.1, toolCallId := call.id, name := call.name, attachments := processed.2 }
  else { content := output, toolCallId := call.id, name := call.name }

def storedMessage (context : ExecutionContext) (call : ToolCall) (output : String) :
    ToolMessage where
  content := context.sanitizeText output
  toolCallId := call.id
  name := call.name

/-- What is raised by the search for newly installed tools, which reads the command. -/
def newToolRaises (handling : Handling) : Option PyError :=
  match handling.call.arguments.get "command" with
  | .error error => some error
  | .ok _ => handling.onNewTool

/-- The search for newly installed tools, after a shell command that succeeded. -/
def detectNewTool (context : ExecutionContext) (handling : Handling) (success : Bool) :
    Executing PUnit :=
  if handling.call.name = "shell_exec" ∧ success = true ∧ context.onNewToolDetected = true then
    callback (newToolRaises handling)
  else pure ⟨⟩

def recordResult (context : ExecutionContext) (handling : Handling) (reported : Reported) :
    Executing PUnit := do
  let call := handling.call
  let output := reported.output
  let success := marked output
  log context handling.logToolCall
    (.toolCall context.user context.channel call.name call.arguments output success)
  detectNewTool context handling success
  answer context handling (resultMessage context call output) (storedMessage context call output)

def recordResults (context : ExecutionContext) : List (Handling × Reported) -> Executing PUnit
  | [] => pure ⟨⟩
  | (handling, reported) :: rest => do
    recordResult context handling reported
    recordResults context rest

def reportOf (settings : ExecutorSettings) (context : ExecutionContext) (handling : Handling) :
    Except PyError Reported :=
  executeOne settings context.toolGapDetector handling.call handling.execution

/-- `asyncio.gather`.  Of several errors the first in time is raised; here it is the
first in the list, and nothing depends on which one it is. -/
def gather (settings : ExecutorSettings) (context : ExecutionContext) (calls : List Handling) :
    Except PyError (List (Handling × Reported)) :=
  calls.mapM fun handling => (reportOf settings context handling).map (Prod.mk handling)

/-- `_execute_calls`; the progress event is scheduled before the calls run. -/
def executeCalls (settings : ExecutorSettings) (context : ExecutionContext)
    (progress : Option PyError) (calls : List Handling) : Executing PUnit := do
  callback progress
  let results <- Program.ofExcept (gather settings context calls)
  recordResults context results

def processToolCalls (settings : ExecutorSettings) (context : ExecutionContext)
    (progress : Option PyError) (calls : List Handling) : Executing PUnit := do
  let executable <- checkCalls context calls
  if executable ≠ [] then executeCalls settings context progress executable

def ExecutorState.toolCalls (state : ExecutorState) : List ExecutorAudit :=
  state.auditLog.filter fun
    | .toolCall .. => true
    | _ => false

/-- The calls which pass the check, each after the ones before it have been checked. -/
def passing (context : ExecutionContext) : SafetyGuard -> List Handling -> List Handling
  | _, [] => []
  | guard, handling :: rest =>
    let checked := checkOutcome context.user context.channel guard handling.call.name handling.now
    let others := passing context checked.2 rest
    if checked.1 = .passes then handling :: others else others

def runEntry (context : ExecutionContext) (handling : Handling) (reported : Reported)
    (success : Bool) : ExecutorAudit :=
  .toolCall context.user context.channel handling.call.name handling.call.arguments
    reported.output success

/-- Every call is answered by one message under its identifier, in the
conversation and in the memory, and the log has the success of every tool. -/
structure Answers (settings : ExecutorSettings) (context : ExecutionContext) (calls : List Handling)
    (before after : ExecutorState) : Prop where
  messages : ∃ appended, after.messages = before.messages ++ appended ∧
    (appended.map ToolMessage.toolCallId).Perm (calls.map fun handling => handling.call.id)
  memory : context.workingMemory = true -> ∃ appended,
    after.memory = before.memory ++ appended ∧
      (appended.map ToolMessage.toolCallId).Perm (calls.map fun handling => handling.call.id)
  audited : context.auditLogger = true -> ∃ results,
    gather settings context (passing context before.guard calls) = .ok results ∧
      after.toolCalls = before.toolCalls ++ results.map fun entry =>
        runEntry context entry.1 entry.2 entry.2.toolSuccess

def QuietCheck (context : ExecutionContext) (outcome : CheckOutcome) (handling : Handling) : Prop :=
  (context.auditLogger = true -> handling.logSafetyCheck = none) ∧
    (outcome = .awaiting -> (context.auditLogger = true -> handling.logApprovalRequest = none) ∧
        handling.publishApproval = none) ∧
    (outcome ≠ .passes -> context.workingMemory = true -> handling.addMessage = none)

def QuietChecks (context : ExecutionContext) : SafetyGuard -> List Handling -> Prop
  | _, [] => True
  | guard, handling :: rest =>
    let checked := checkOutcome context.user context.channel guard handling.call.name handling.now
    QuietCheck context checked.1 handling ∧ QuietChecks context checked.2 rest

def QuietRecord (context : ExecutionContext) (handling : Handling) (reported : Reported) : Prop :=
  (context.auditLogger = true -> handling.logToolCall = none) ∧
    (handling.call.name = "shell_exec" -> marked reported.output = true ->
      context.onNewToolDetected = true -> newToolRaises handling = none) ∧
    (context.workingMemory = true -> handling.addMessage = none)

/-- A call that is reported as failed has the mark of success in its text
exactly if its tool did succeed. -/
def Honest (reported : Reported) : Prop :=
  reported.ok = false ->
    (successMarker.toList <:+: reported.text.toList <-> reported.toolSuccess = true)

/-- Nothing leaves the call: its arguments can be read as a dictionary, and what is
raised behind that is an `Exception`. -/
structure Contained (settings : ExecutorSettings) (context : ExecutionContext) (handling : Handling) :
    Prop where
  readable : ∃ arguments, effectiveArguments handling.call.arguments = .ok arguments
  caught : ∀ raised, attempt settings context.toolGapDetector handling.call handling.execution =
    .error raised -> raised.error.isException = true

structure Undisturbed (settings : ExecutorSettings) (context : ExecutionContext)
    (progress : Option PyError) (guard : SafetyGuard) (calls : List Handling) : Prop where
  checks : QuietChecks context guard calls
  published : passing context guard calls ≠ [] -> progress = none
  contained : ∀ handling ∈ passing context guard calls, Contained settings context handling
  recorded : ∀ handling ∈ passing context guard calls, ∀ reported,
    reportOf settings context handling = .ok reported -> QuietRecord context handling reported
  honest : context.auditLogger = true -> ∀ handling ∈ passing context guard calls, ∀ reported,
    reportOf settings context handling = .ok reported -> Honest reported

theorem reportOf_ok_iff {settings : ExecutorSettings} {context : ExecutionContext}
    {handling : Handling} : (∃ reported, reportOf settings context handling = .ok reported) <->
      Contained settings context handling := by
  unfold reportOf executeOne
  cases given : effectiveArguments handling.call.arguments with
  | error error =>
    refine iff_of_false (fun ⟨_, impossible⟩ => nomatch impossible) fun contained => ?_
    rcases contained.readable with ⟨arguments, read⟩
    cases given.symm.trans read
  | ok arguments =>
    dsimp only
    cases tried : attempt settings context.toolGapDetector handling.call handling.execution with
    | ok reported =>
      exact iff_of_true ⟨reported, rfl⟩ ⟨⟨_, given⟩, fun raised failed => nomatch tried.symm.trans failed⟩
    | error raised =>
      dsimp only
      split
      case isTrue exception =>
        refine iff_of_true ⟨_, rfl⟩ ⟨⟨_, given⟩, fun other failed => ?_⟩
        cases tried.symm.trans failed
        exact exception
      case isFalse escapes =>
        refine iff_of_false (fun ⟨_, impossible⟩ => nomatch impossible) fun contained => ?_
        exact escapes (contained.caught raised tried)

theorem gather_ok {settings : ExecutorSettings} {context : ExecutionContext} {calls : List Handling}
    {results : List (Handling × Reported)} (gathered : gather settings context calls = .ok results) :
    results.map Prod.fst = calls ∧
      ∀ entry ∈ results, reportOf settings context entry.1 = .ok entry.2 := by
  have matched := mapM_eq_ok_iff.mp gathered
  clear gathered
  induction matched with
  | nil => exact ⟨rfl, fun _ impossible => nomatch impossible⟩
  | @cons handling entry calls results here _ ih =>
    cases told : reportOf settings context handling with
    | error error =>
      rw [told] at here
      cases here
    | ok reported =>
      rw [told] at here
      cases here
      refine ⟨congrArg (List.cons handling) ih.1, fun other member => ?_⟩
      rcases List.mem_cons.mp member with rfl | later
      · exact told
      · exact ih.2 other later

theorem gather_error {settings : ExecutorSettings} {context : ExecutionContext}
    {calls : List Handling} {error : PyError}
    (raised : gather settings context calls = .error error) :
    ∃ handling ∈ calls, ¬ Contained settings context handling := by
  by_contra contained
  have every : ∀ handling ∈ calls, ∃ reported, reportOf settings context handling = .ok reported := by
    intro handling member
    by_contra escapes
    exact contained ⟨handling, member, fun here => escapes (reportOf_ok_iff.mpr here)⟩
  have fine : FailsOnly (fun _ => False) (gather settings context calls) := by
    refine (failsOnly_mapM (fun _ _ _ => id) calls).mpr fun handling member => ?_
    rcases every handling member with ⟨reported, told⟩
    exact ⟨(handling, reported), by rw [told]; rfl⟩
  exact fine error raised

/-! ## The mark of success -/

theorem postHooked_ok {settings : ExecutorSettings} {timeout : Nat} {execution : ExecutionAnswers}
    {result : ToolResult} {reported : Reported}
    (ended : postHooked settings timeout execution result = .ok reported) :
    reported.ok = reported.toolSuccess := by
  unfold postHooked at ended
  split at ended
  · split at ended
    · cases ended
    · cases ended
      rfl
  · cases ended
    rfl

theorem concludeRun_ok {settings : ExecutorSettings} {toolGapDetector : Bool} {timeout : Nat}
    {execution : ExecutionAnswers} {result : ToolResult} {reported : Reported}
    (ended : concludeRun settings toolGapDetector timeout execution result = .ok reported) :
    reported.ok = true -> reported.toolSuccess = true := by
  unfold concludeRun at ended
  split at ended
  · split at ended
    · cases ended
      exact fun impossible => nomatch impossible
    · split at ended
      · exact fun ok => (postHooked_ok ended).symm.trans ok
      · cases ended
  · exact fun ok => (postHooked_ok ended).symm.trans ok

theorem attempt_ok {settings : ExecutorSettings} {toolGapDetector : Bool} {call : ToolCall}
    {execution : ExecutionAnswers} {reported : Reported}
    (ended : attempt settings toolGapDetector call execution = .ok reported) :
    reported.ok = true -> reported.toolSuccess = true := by
  unfold attempt at ended
  dsimp only at ended
  split at ended
  · rcases bind_eq_ok.mp ended with ⟨_, _, ran⟩
    rcases bind_eq_ok.mp ran with ⟨result, _, built⟩
    cases built
    exact id
  · rcases bind_eq_ok.mp ended with ⟨hooked, _, rest⟩
    split at rest
    · cases rest
      exact fun impossible => nomatch impossible
    · rcases bind_eq_ok.mp rest with ⟨_, _, rest⟩
      rcases bind_eq_ok.mp rest with ⟨errors, _, rest⟩
      split at rest
      · cases rest
        exact fun impossible => nomatch impossible
      · rcases bind_eq_ok.mp rest with ⟨timeout, _, rest⟩
        rcases bind_eq_ok.mp rest with ⟨result, _, concluded⟩
        exact concludeRun_ok concluded

theorem reportOf_ok {settings : ExecutorSettings} {context : ExecutionContext} {handling : Handling}
    {reported : Reported} (told : reportOf settings context handling = .ok reported) :
    reported.ok = true -> reported.toolSuccess = true := by
  unfold reportOf executeOne at told
  split at told
  · cases told
  · split at told
    case h_1 tried =>
      cases told
      exact attempt_ok tried
    case h_2 =>
      split at told <;> cases told
      exact fun impossible => nomatch impossible

theorem marked_of_ok {reported : Reported} (ok : reported.ok = true) :
    marked reported.output = true := by
  unfold marked Reported.output
  rw [ok, decide_eq_true_eq]
  refine ⟨[], (" " ++ reported.text).toList, ?_⟩
  simp only [List.nil_append, String.toList_append]
  rfl

theorem infix_append_of_not_mem {Letter : Type} {head : Letter} {tail skipped rest : List Letter}
    (absent : head ∉ skipped) : head :: tail <:+: skipped ++ rest <-> head :: tail <:+: rest := by
  induction skipped with
  | nil => exact Iff.rfl
  | cons letter others ih =>
    have later : head ∉ others := fun member => absent (List.mem_cons_of_mem _ member)
    rw [List.cons_append, List.infix_cons_iff, ih later]
    refine or_iff_right ?_
    intro here
    exact absent (List.mem_cons.mpr (.inl (List.cons_prefix_cons.mp here).1))

theorem marked_of_failed {reported : Reported} (notOk : reported.ok = false) :
    marked reported.output = true <-> successMarker.toList <:+: reported.text.toList := by
  have shown : reported.output.toList =
      '[' :: ("success=False] ".toList ++ reported.text.toList) := by
    unfold Reported.output
    rw [notOk]
    simp only [String.toList_append, pyBool]
    rfl
  have mark : successMarker.toList = '[' :: "success=True]".toList := rfl
  unfold marked
  rw [decide_eq_true_eq, shown, mark, List.infix_cons_iff, infix_append_of_not_mem (by decide)]
  refine or_iff_right ?_
  intro here
  rcases (List.cons_prefix_cons.mp here).2 with ⟨rest, same⟩
  have ninth : some 'T' = some 'F' := congrArg (fun letters => letters[8]?) same
  exact absurd ninth (by decide)

theorem marked_iff_honest {reported : Reported}
    (sound : reported.ok = true -> reported.toolSuccess = true) :
    marked reported.output = reported.toolSuccess <-> Honest reported := by
  unfold Honest
  cases ended : reported.ok with
  | true =>
    refine iff_of_true ?_ ?_
    · rw [marked_of_ok ended]
      exact (sound ended).symm
    · intro impossible
      cases impossible
  | false =>
    rw [← marked_of_failed ended, Bool.eq_iff_iff]
    exact ⟨fun same _ => same, fun honest => honest rfl⟩

/-! ## What the phases leave behind -/

structure Grown (context : ExecutionContext) (before after : ExecutorState) (ids : List String)
    (recorded : List ExecutorAudit) : Prop where
  messages : ∃ appended, after.messages = before.messages ++ appended ∧
    appended.map ToolMessage.toolCallId = ids
  memory : context.workingMemory = true -> ∃ appended,
    after.memory = before.memory ++ appended ∧ appended.map ToolMessage.toolCallId = ids
  toolCalls : context.auditLogger = true -> after.toolCalls = before.toolCalls ++ recorded

def Behind (context : ExecutionContext) (before after : ExecutorState) (count : Nat) : Prop :=
  after.messages.length < before.messages.length + count ∨
    (context.workingMemory = true ∧ after.memory.length < before.memory.length + count)

variable {settings : ExecutorSettings} {context : ExecutionContext}

theorem Grown.refl (state : ExecutorState) : Grown context state state [] [] where
  messages := ⟨[], (List.append_nil _).symm, rfl⟩
  memory := fun _ => ⟨[], (List.append_nil _).symm, rfl⟩
  toolCalls := fun _ => (List.append_nil _).symm

variable {ids : List String} {recorded : List ExecutorAudit}

theorem Grown.trans {first second third : ExecutorState} {others : List String}
    {further : List ExecutorAudit} (early : Grown context first second ids recorded)
    (late : Grown context second third others further) :
    Grown context first third (ids ++ others) (recorded ++ further) where
  messages := by
    rcases early.messages with ⟨appended, same, named⟩
    rcases late.messages with ⟨more, next, namedToo⟩
    refine ⟨appended ++ more, ?_, ?_⟩
    · rw [next, same, List.append_assoc]
    · rw [List.map_append, named, namedToo]
  memory := by
    intro present
    rcases early.memory present with ⟨appended, same, named⟩
    rcases late.memory present with ⟨more, next, namedToo⟩
    refine ⟨appended ++ more, ?_, ?_⟩
    · rw [next, same, List.append_assoc]
    · rw [List.map_append, named, namedToo]
  toolCalls := by
    intro present
    rw [late.toolCalls present, early.toolCalls present, List.append_assoc]

variable {count : Nat}

theorem Grown.behind {first second third : ExecutorState}
    (grown : Grown context first second ids recorded) (behind : Behind context second third count) :
    Behind context first third (ids.length + count) := by
  rcases behind with fewer | ⟨present, fewer⟩
  · rcases grown.messages with ⟨appended, same, named⟩
    refine Or.inl ?_
    rw [same, List.length_append] at fewer
    rw [← named, List.length_map]
    omega
  · rcases grown.memory present with ⟨appended, same, named⟩
    refine .inr ⟨present, ?_⟩
    rw [same, List.length_append] at fewer
    rw [← named, List.length_map]
    omega

variable {before after : ExecutorState}

theorem Behind.of_grown
    (grown : Grown context before after ids recorded) (fewer : ids.length < count) :
    Behind context before after count := by
  rcases grown.messages with ⟨appended, same, named⟩
  have counted : appended.length = ids.length := by rw [← named, List.length_map]
  refine Or.inl ?_
  rw [same, List.length_append]
  omega

theorem Behind.mono {more : Nat}
    (behind : Behind context before after count) (most : count ≤ more) :
    Behind context before after more := by
  rcases behind with fewer | ⟨present, fewer⟩
  · exact .inl (by omega)
  · exact .inr ⟨present, by omega⟩

theorem not_answers_of_behind {progress : List Handling}
    (behind : Behind context before after progress.length) :
    Not (Answers settings context progress before after) := by
  intro answers
  rcases behind with fewer | ⟨present, fewer⟩
  · rcases answers.messages with ⟨appended, same, named⟩
    have lengths := named.length_eq
    rw [List.length_map, List.length_map] at lengths
    rw [same, List.length_append] at fewer
    omega
  · rcases answers.memory present with ⟨appended, same, named⟩
    have lengths := named.length_eq
    rw [List.length_map, List.length_map] at lengths
    rw [same, List.length_append] at fewer
    omega

/-! ## One call in each phase -/

theorem ensures_callback {before : ExecutorState -> Prop} (answer : Option PyError) :
    Ensures before (callback answer) (fun _ state => before state ∧ answer = none)
      (fun _ state => before state ∧ answer ≠ none) := by
  unfold callback
  cases answer with
  | none => exact ensures_pure fun state holds => ⟨holds, rfl⟩
  | some error => exact ensures_throw fun state holds => ⟨holds, Option.some_ne_none error⟩

theorem ensures_log {before after : ExecutorState -> Prop} (answer : Option PyError)
    (entry : ExecutorAudit)
    (absent : context.auditLogger = false -> ∀ state, before state -> after state)
    (enters : context.auditLogger = true -> ∀ state, before state ->
      after { state with auditLog := state.auditLog ++ [entry] }) :
    Ensures before (log context answer entry)
      (fun _ state => after state ∧ (context.auditLogger = true -> answer = none))
      (fun _ state => before state ∧ context.auditLogger = true ∧ answer ≠ none) := by
  unfold log
  cases present : context.auditLogger with
  | false =>
    refine ensures_pure ?_
    intro state holds
    refine ⟨absent present state holds, ?_⟩
    intro impossible
    cases impossible
  | true =>
    rw [if_pos rfl]
    refine ensures_bind (fun _ state => before state ∧ answer = none) ?_ ?_
    · refine Ensures.raise (ensures_callback answer) ?_
      intro error state holds
      exact ⟨holds.1, rfl, holds.2⟩
    · intro value
      refine ensures_modify ?_
      rintro state ⟨holds, quiet⟩
      exact ⟨enters present state holds, fun _ => quiet⟩

structure Untouched (before after : ExecutorState) : Prop where
  messages : after.messages = before.messages
  memory : after.memory = before.memory
  toolCalls : after.toolCalls = before.toolCalls

theorem Untouched.grown (untouched : Untouched before after) :
    Grown context before after [] [] where
  messages := ⟨[], by rw [untouched.messages, List.append_nil], rfl⟩
  memory := fun _ => ⟨[], by rw [untouched.memory, List.append_nil], rfl⟩
  toolCalls := fun _ => by rw [untouched.toolCalls, List.append_nil]

def ExecutorAudit.isRun : ExecutorAudit -> Bool
  | toolCall .. => true
  | _ => false

theorem Untouched.log {before after : ExecutorState} (untouched : Untouched before after)
    {entry : ExecutorAudit} (other : entry.isRun = false) :
    Untouched before { after with auditLog := after.auditLog ++ [entry] } where
  messages := untouched.messages
  memory := untouched.memory
  toolCalls := by
    refine Eq.trans ?_ untouched.toolCalls
    unfold ExecutorState.toolCalls
    rw [List.filter_append]
    cases entry with
    | safetyCheck => exact List.append_nil _
    | approvalRequest => exact List.append_nil _
    | toolCall => cases other

variable (start : ExecutorState) (guard : SafetyGuard) (handling : Handling)

theorem ensures_handleApproval : Ensures (fun state => Untouched start state ∧ state.guard = guard)
      (handleApproval context handling)
      (fun message state => (Untouched start state ∧ state.guard = guard) ∧
        message.toolCallId = handling.call.id ∧
        (context.auditLogger = true -> handling.logApprovalRequest = none) ∧
        handling.publishApproval = none) (fun _ state => Untouched start state ∧
        Not ((context.auditLogger = true -> handling.logApprovalRequest = none) ∧
          handling.publishApproval = none)) := by
  unfold handleApproval
  refine ensures_bind (fun _ state => Untouched start state ∧ state.guard = guard) ?_ ?_
  · refine ensures_modify ?_
    rintro state ⟨untouched, same⟩
    exact ⟨⟨untouched.messages, untouched.memory, untouched.toolCalls⟩, same⟩
  · intro value
    refine ensures_bind (fun _ state => (Untouched start state ∧ state.guard = guard) ∧
      (context.auditLogger = true -> handling.logApprovalRequest = none)) ?_ ?_
    · refine Ensures.raise (@ensures_log context _
          (fun state => Untouched start state ∧ state.guard = guard) handling.logApprovalRequest _
          (fun _ _ holds => holds) (fun _ _ holds => ⟨holds.1.log rfl, holds.2⟩)) ?_
      rintro error state ⟨holds, present, raises⟩
      exact ⟨holds.1, fun quiet => raises (quiet.1 present)⟩
    · intro value
      refine ensures_bind (fun _ state => ((Untouched start state ∧ state.guard = guard) ∧
        (context.auditLogger = true -> handling.logApprovalRequest = none)) ∧
        handling.publishApproval = none) ?_ ?_
      · refine Ensures.raise (ensures_callback handling.publishApproval) ?_
        rintro error state ⟨holds, raises⟩
        exact ⟨holds.1.1, fun quiet => raises quiet.2⟩
      · intro value
        refine ensures_pure ?_
        rintro state ⟨⟨holds, logged⟩, published⟩
        exact ⟨holds, rfl, logged, published⟩

def QuietDecision (context : ExecutionContext) (outcome : CheckOutcome) (handling : Handling) :
    Prop :=
  (context.auditLogger = true -> handling.logSafetyCheck = none) ∧
    (outcome = .awaiting -> (context.auditLogger = true -> handling.logApprovalRequest = none) ∧
        handling.publishApproval = none)

def AnswersCheck (outcome : CheckOutcome) (handling : Handling) : Option ToolMessage -> Prop
  | some message => outcome ≠ .passes ∧ message.toolCallId = handling.call.id
  | none => outcome = .passes

theorem ensures_answerCheck
    (outcome : CheckOutcome) (logged : context.auditLogger = true -> handling.logSafetyCheck = none) :
    Ensures (fun state => Untouched start state ∧ state.guard = guard)
      (answerCheck context handling outcome)
      (fun message state => (Untouched start state ∧ state.guard = guard) ∧
        AnswersCheck outcome handling message ∧ QuietDecision context outcome handling)
      (fun _ state => Untouched start state ∧ Not (QuietDecision context outcome handling)) := by
  cases outcome with
  | denied | cooling =>
    refine ensures_pure ?_
    intro state holds
    refine ⟨holds, ⟨?_, rfl⟩, logged, ?_⟩
    · intro impossible
      cases impossible
    · intro impossible
      cases impossible
  | passes =>
    refine ensures_pure ?_
    intro state holds
    refine ⟨holds, rfl, logged, ?_⟩
    intro impossible
    cases impossible
  | awaiting =>
    refine ensures_bind _ (Ensures.raise (ensures_handleApproval start guard handling) ?_) ?_
    · rintro error state ⟨holds, raises⟩
      exact ⟨holds, fun quiet => raises (quiet.2 rfl)⟩
    · intro message
      refine ensures_pure ?_
      rintro state ⟨holds, named, quiet⟩
      refine ⟨holds, ⟨?_, named⟩, logged, fun _ => quiet⟩
      intro impossible
      cases impossible

theorem ensures_checkToolCall {outcome : CheckOutcome} {guard : SafetyGuard}
    (checked : checkOutcome context.user context.channel start.guard handling.call.name
      handling.now = (outcome, guard)) :
    Ensures (fun state => state = start) (checkToolCall context handling)
      (fun message state => (Untouched start state ∧ state.guard = guard) ∧
        AnswersCheck outcome handling message ∧ QuietDecision context outcome handling)
      (fun _ state => Untouched start state ∧ Not (QuietDecision context outcome handling)) := by
  unfold checkToolCall
  refine ensures_bind (fun value state => state = start ∧ value = start) ?_ ?_
  · rintro state rfl
    exact ⟨rfl, rfl⟩
  · intro state
    refine ensures_of_fact ?_
    rintro rfl
    dsimp only
    rw [checked]
    refine ensures_bind (fun _ after => Untouched state after ∧
      (context.auditLogger = true -> handling.logSafetyCheck = none)) ?_ ?_
    · refine Ensures.weaken (@ensures_log context (fun after => Untouched state after)
          (fun after => Untouched state after) handling.logSafetyCheck _
          (fun _ _ holds => holds) (fun _ _ holds => holds.log rfl))
        ?_ (fun _ _ holds => holds) ?_
      · rintro after rfl
        exact ⟨rfl, rfl, rfl⟩
      · rintro error after ⟨holds, present, raises⟩
        exact ⟨holds, fun quiet => raises (quiet.1 present)⟩
    · intro value
      refine ensures_of_fact ?_
      intro logged
      refine ensures_bind (fun _ after => Untouched state after ∧ after.guard = guard) ?_ ?_
      · refine ensures_modify ?_
        intro after holds
        exact ⟨⟨holds.messages, holds.memory, holds.toolCalls⟩, rfl⟩
      · intro value
        exact ensures_answerCheck state guard handling outcome logged

/-- Nothing but the audited runs has changed. -/
def RunsAudited (context : ExecutionContext) (start : ExecutorState) (guard : SafetyGuard)
    (recorded : List ExecutorAudit) (state : ExecutorState) : Prop :=
  state.messages = start.messages ∧ state.memory = start.memory ∧
    (context.auditLogger = true -> state.toolCalls = start.toolCalls ++ recorded) ∧
    state.guard = guard

theorem ensures_answer (recorded : List ExecutorAudit)
    (handling : Handling) {message stored : ToolMessage}
    (named : message.toolCallId = handling.call.id) (same : stored.toolCallId = handling.call.id) :
    Ensures (RunsAudited context start guard recorded) (answer context handling message stored)
      (fun _ state => Grown context start state [handling.call.id] recorded ∧
        state.guard = guard ∧ (context.workingMemory = true -> handling.addMessage = none))
      (fun _ state => Behind context start state 1 ∧
        Not (context.workingMemory = true -> handling.addMessage = none)) := by
  unfold answer
  refine ensures_bind (fun _ state => state.messages = start.messages ++ [message] ∧
    state.memory = start.memory ∧
    (context.auditLogger = true -> state.toolCalls = start.toolCalls ++ recorded) ∧
    state.guard = guard) ?_ ?_
  · refine ensures_modify ?_
    rintro state ⟨messages, rest⟩
    exact ⟨congrArg (fun earlier => earlier ++ [message]) messages, rest⟩
  · intro value
    have shown : [message].map ToolMessage.toolCallId = [handling.call.id] := by
      rw [List.map_singleton, named]
    cases present : context.workingMemory with
    | false =>
      refine ensures_pure ?_
      rintro state ⟨messages, _, audited, settled⟩
      refine ⟨⟨⟨[message], messages, shown⟩, ?_, audited⟩, settled, ?_⟩
      · intro impossible
        rw [present] at impossible
        cases impossible
      · intro impossible
        cases impossible
    | true =>
      rw [if_pos rfl]
      refine ensures_bind _ (Ensures.raise (ensures_callback handling.addMessage) ?_) ?_
      · rintro error state ⟨⟨_, memory, _⟩, raises⟩
        refine ⟨.inr ⟨present, ?_⟩, fun quiet => raises (quiet rfl)⟩
        rw [memory]
        exact Nat.lt_succ_self _
      · intro value
        refine ensures_modify ?_
        rintro state ⟨⟨messages, memory, audited, settled⟩, quiet⟩
        refine ⟨⟨⟨[message], messages, shown⟩, ?_, audited⟩, settled, fun _ => quiet⟩
        intro _
        refine ⟨[stored], congrArg (fun earlier => earlier ++ [stored]) memory, ?_⟩
        rw [List.map_singleton, same]

def Shares (calls executable : List Handling) (ids : List String) : Prop :=
  (ids ++ executable.map fun handling => handling.call.id).Perm
    (calls.map fun handling => handling.call.id)

theorem ensures_checkCalls (calls : List Handling) (start : ExecutorState) :
    Ensures (fun state => state = start) (checkCalls context calls)
      (fun executable state => executable = passing context start.guard calls ∧
        QuietChecks context start.guard calls ∧ ∃ ids,
          Grown context start state ids [] ∧ Shares calls executable ids)
      (fun _ state => Not (QuietChecks context start.guard calls) ∧
        Behind context start state calls.length) := by
  induction calls generalizing start with
  | nil =>
    refine ensures_pure ?_
    rintro state rfl
    exact ⟨rfl, trivial, [], Grown.refl state, List.Perm.refl _⟩
  | cons handling rest ih =>
    rcases checked : checkOutcome context.user context.channel start.guard handling.call.name
      handling.now with ⟨outcome, guard⟩
    have quietly : QuietChecks context start.guard (handling :: rest) <->
        QuietCheck context outcome handling ∧ QuietChecks context guard rest := by
      rw [QuietChecks, checked]
    have passed : passing context start.guard (handling :: rest) =
        if outcome = .passes then handling :: passing context guard rest
        else passing context guard rest := by
      rw [passing, checked]
    have others : ∀ before : List String, before.length ≤ 1 ->
        Ensures (fun state => Grown context start state before [] ∧ state.guard = guard)
          (checkCalls context rest)
          (fun executable state =>
            executable = passing context guard rest ∧ QuietChecks context guard rest ∧
              ∃ ids, Grown context start state (before ++ ids) [] ∧ Shares rest executable ids)
          (fun _ state => Not (QuietChecks context start.guard (handling :: rest)) ∧
            Behind context start state (rest.length + 1)) := by
      intro before short
      refine ensures_at fun state ⟨grown, settled⟩ => ?_
      have later := ih state
      rw [settled] at later
      refine Ensures.weaken later (fun _ same => same) ?_ ?_
      · rintro executable after ⟨same, quietRest, ids, grownToo, shared⟩
        exact ⟨same, quietRest, ids, grown.trans grownToo, shared⟩
      · rintro error after ⟨noisy, behind⟩
        refine ⟨?_, (grown.behind behind).mono (by omega)⟩
        rw [quietly]
        exact fun both => noisy both.2
    rw [checkCalls]
    refine ensures_bind _ (Ensures.raise (ensures_checkToolCall start handling checked) ?_) ?_
    · rintro error state ⟨untouched, noisy⟩
      refine ⟨?_, Behind.of_grown untouched.grown (Nat.succ_pos _)⟩
      rw [quietly]
      rintro ⟨quiet, _⟩
      exact noisy ⟨quiet.1, quiet.2.1⟩
    · intro message
      cases message with
      | none =>
        dsimp only
        refine ensures_from (fun state holds => show (Untouched start state ∧
          state.guard = guard) ∧ (outcome = .passes ∧ QuietDecision context outcome handling)
            from ⟨holds.1, holds.2⟩) ?_
        rintro ⟨passes, decided⟩
        have quiet : QuietCheck context outcome handling :=
          ⟨decided.1, decided.2, fun stops => absurd passes stops⟩
        refine ensures_bind _ (Ensures.start (others [] (Nat.zero_le _))
          (fun _ holds => ⟨holds.1.grown, holds.2⟩)) ?_
        · intro executable
          refine ensures_pure ?_
          rintro state ⟨same, quietRest, ids, grown, shared⟩
          refine ⟨?_, quietly.mpr ⟨quiet, quietRest⟩, ids, grown, ?_⟩
          · rw [passed, if_pos passes, same]
          · unfold Shares
            rw [List.map_cons, List.map_cons]
            exact List.perm_middle.trans (List.Perm.cons _ shared)
      | some message =>
        dsimp only
        refine ensures_from (fun state holds => show (Untouched start state ∧
          state.guard = guard) ∧ ((outcome ≠ .passes ∧ message.toolCallId = handling.call.id) ∧
            QuietDecision context outcome handling) from ⟨holds.1, holds.2⟩) ?_
        rintro ⟨⟨stops, named⟩, decided⟩
        refine ensures_bind (fun _ state => (Grown context start state [handling.call.id] [] ∧
          state.guard = guard) ∧ (context.workingMemory = true -> handling.addMessage = none))
          (Ensures.weaken (ensures_answer start guard [] handling named named) ?_ ?_ ?_) ?_
        · rintro state ⟨untouched, settled⟩
          exact ⟨untouched.messages, untouched.memory, untouched.grown.toolCalls, settled⟩
        · rintro value state ⟨grown, settled, answered⟩
          exact ⟨⟨grown, settled⟩, answered⟩
        · rintro error state ⟨behind, noisy⟩
          refine ⟨?_, behind.mono (Nat.succ_le_succ (Nat.zero_le _))⟩
          rw [quietly]
          exact fun both => noisy (both.1.2.2 stops)
        · intro value
          refine ensures_of_fact ?_
          intro answered
          have quiet : QuietCheck context outcome handling :=
            ⟨decided.1, decided.2, fun _ => answered⟩
          refine Ensures.weaken (others [handling.call.id] (Nat.le_refl _)) (fun _ holds => holds) ?_
            (fun _ _ holds => holds)
          rintro executable state ⟨same, quietRest, ids, grown, shared⟩
          refine ⟨?_, quietly.mpr ⟨quiet, quietRest⟩, handling.call.id :: ids, grown,
            List.Perm.cons _ shared⟩
          rw [passed, if_neg stops, same]

/-! ## The second phase -/

theorem ensures_recordResult (reported : Reported) :
    Ensures (fun state => state = start) (recordResult context handling reported)
      (fun _ state => Grown context start state [handling.call.id]
          [runEntry context handling reported (marked reported.output)] ∧
        QuietRecord context handling reported)
      (fun _ state => Not (QuietRecord context handling reported) ∧
        Behind context start state 1) := by
  unfold recordResult
  dsimp only
  refine ensures_bind (fun _ state => RunsAudited context start start.guard
      [runEntry context handling reported (marked reported.output)] state ∧
    (context.auditLogger = true -> handling.logToolCall = none)) ?_ ?_
  · refine Ensures.raise (@ensures_log context (fun state => state = start)
        (RunsAudited context start start.guard
          [runEntry context handling reported (marked reported.output)])
        handling.logToolCall _ ?_ ?_) ?_
    · rintro absent state rfl
      refine ⟨rfl, rfl, ?_, rfl⟩
      intro present
      rw [absent] at present
      cases present
    · rintro present state rfl
      exact ⟨rfl, rfl, fun _ => List.filter_append _ _, rfl⟩
    · rintro error state ⟨same, present, raises⟩
      refine ⟨fun quiet => raises (quiet.1 present), ?_⟩
      rw [same]
      exact Behind.of_grown (Grown.refl start) Nat.zero_lt_one
  · intro value
    refine ensures_of_fact ?_
    intro logged
    refine ensures_bind (fun _ state => RunsAudited context start start.guard
        [runEntry context handling reported (marked reported.output)] state ∧
      (handling.call.name = "shell_exec" -> marked reported.output = true ->
        context.onNewToolDetected = true -> newToolRaises handling = none)) ?_ ?_
    · unfold detectNewTool
      split
      case isTrue asked =>
        refine Ensures.weaken (ensures_callback (newToolRaises handling)) (fun _ holds => holds)
          (fun _ _ holds => ⟨holds.1, fun _ _ _ => holds.2⟩) ?_
        rintro error state ⟨⟨messages, _⟩, raises⟩
        refine ⟨fun quiet => raises (quiet.2.1 asked.1 asked.2.1 asked.2.2), Or.inl ?_⟩
        rw [messages]
        exact Nat.lt_succ_self _
      case isFalse asked =>
        refine ensures_pure ?_
        intro state holds
        exact ⟨holds, fun named succeeded present => absurd ⟨named, succeeded, present⟩ asked⟩
    · intro value
      refine ensures_of_fact ?_
      intro detected
      refine Ensures.weaken (ensures_answer start start.guard _ handling ?_ rfl)
        (fun _ holds => holds) ?_ ?_
      · unfold resultMessage
        dsimp only
        split <;> rfl
      · rintro value state ⟨grown, _, answered⟩
        exact ⟨grown, logged, detected, answered⟩
      · rintro error state ⟨behind, noisy⟩
        exact ⟨fun quiet => noisy quiet.2.2, behind⟩

theorem ensures_recordResults (results : List (Handling × Reported)) (start : ExecutorState) :
    Ensures (fun state => state = start) (recordResults context results)
      (fun _ state => Grown context start state (results.map fun entry => entry.1.call.id)
          (results.map fun entry => runEntry context entry.1 entry.2 (marked entry.2.output)) ∧
        ∀ entry ∈ results, QuietRecord context entry.1 entry.2)
      (fun _ state => Not (∀ entry ∈ results, QuietRecord context entry.1 entry.2) ∧
        Behind context start state results.length) := by
  induction results generalizing start with
  | nil =>
    refine ensures_pure ?_
    rintro state rfl
    refine ⟨Grown.refl state, ?_⟩
    intro entry member
    cases member
  | cons entry rest ih =>
    rcases entry with ⟨handling, reported⟩
    rw [recordResults]
    refine ensures_bind _ (Ensures.raise (ensures_recordResult start handling reported) ?_) ?_
    · rintro error state ⟨noisy, behind⟩
      refine ⟨fun quiet => noisy (quiet _ List.mem_cons_self), behind.mono ?_⟩
      rw [List.length_cons]
      omega
    · intro value
      refine ensures_at fun state ⟨grown, quiet⟩ => ?_
      refine Ensures.weaken (ih state) (fun _ same => same) ?_ ?_
      · rintro value after ⟨further, quietRest⟩
        refine ⟨grown.trans further, ?_⟩
        intro other member
        rcases List.mem_cons.mp member with rfl | later
        · exact quiet
        · exact quietRest other later
      · rintro error after ⟨noisy, behind⟩
        refine ⟨?_, (grown.behind behind).mono ?_⟩
        · intro every
          exact noisy fun other member => every other (List.mem_cons_of_mem _ member)
        · rw [List.length_singleton, List.length_cons]
          omega

def Quiet (settings : ExecutorSettings) (context : ExecutionContext) (progress : Option PyError)
    (guard : SafetyGuard) (calls : List Handling) : Prop :=
  QuietChecks context guard calls ∧ (passing context guard calls ≠ [] -> progress = none) ∧
    (∀ handling ∈ passing context guard calls, Contained settings context handling) ∧
    ∀ handling ∈ passing context guard calls, ∀ reported,
      reportOf settings context handling = .ok reported -> QuietRecord context handling reported

theorem quietRecords_iff {calls : List Handling} {results : List (Handling × Reported)}
    (gathered : gather settings context calls = .ok results) :
    (∀ entry ∈ results, QuietRecord context entry.1 entry.2) <-> ∀ handling ∈ calls, ∀ reported,
      reportOf settings context handling = .ok reported -> QuietRecord context handling reported := by
  rcases gather_ok gathered with ⟨named, told⟩
  constructor
  · intro quiet handling member reported given
    rw [← named] at member
    rcases List.mem_map.mp member with ⟨entry, listed, rfl⟩
    cases (told entry listed).symm.trans given
    exact quiet entry listed
  · intro quiet entry member
    exact quiet entry.1 (named ▸ List.mem_map_of_mem member) entry.2 (told entry member)

theorem ensures_processToolCalls (progress : Option PyError) (calls : List Handling)
    (start : ExecutorState) :
    Ensures (fun state => state = start) (processToolCalls settings context progress calls)
      (fun _ state => Quiet settings context progress start.guard calls ∧ ∃ results ids,
        gather settings context (passing context start.guard calls) = .ok results ∧
        Grown context start state ids (results.map fun entry =>
          runEntry context entry.1 entry.2 (marked entry.2.output)) ∧
        ids.Perm (calls.map fun handling => handling.call.id))
      (fun _ state => Not (Quiet settings context progress start.guard calls) ∧
        Behind context start state calls.length) := by
  unfold processToolCalls
  refine ensures_bind _ (Ensures.raise (ensures_checkCalls calls start) ?_) ?_
  · rintro error state ⟨noisy, behind⟩
    exact ⟨fun quiet => noisy quiet.1, behind⟩
  · intro executable
    refine ensures_from (fun state holds => show (QuietChecks context start.guard calls ∧
      ∃ ids, Grown context start state ids [] ∧ Shares calls executable ids) ∧
        executable = passing context start.guard calls from ⟨holds.2, holds.1⟩) ?_
    intro same
    subst same
    by_cases some_ : passing context start.guard calls = []
    · rw [if_neg (not_not.mpr some_)]
      refine ensures_pure ?_
      rintro state ⟨checks, ids, grown, shared⟩
      unfold Shares at shared
      unfold Quiet
      rw [some_] at shared ⊢
      rw [List.map_nil, List.append_nil] at shared
      refine ⟨⟨checks, fun other => absurd rfl other, ?_, ?_⟩, [], ids, rfl, grown, shared⟩
      all_goals
        intro handling member
        cases member
    · rw [if_pos some_]
      unfold executeCalls
      have fewer : ∀ {ids : List String}, Shares calls (passing context start.guard calls) ids ->
          ids.length < calls.length ∧
            ids.length + (passing context start.guard calls).length = calls.length := by
        intro ids shared
        have total := shared.length_eq
        rw [List.length_append, List.length_map, List.length_map] at total
        have positive := List.length_pos_of_ne_nil some_
        omega
      refine ensures_bind _ (Ensures.raise (ensures_callback progress) ?_) ?_
      · rintro error state ⟨⟨checks, ids, grown, shared⟩, raises⟩
        exact ⟨fun quiet => raises (quiet.2.1 some_), Behind.of_grown grown (fewer shared).1⟩
      · intro value
        refine ensures_bind (fun results state =>
          ((QuietChecks context start.guard calls ∧ ∃ ids, Grown context start state ids [] ∧
            Shares calls (passing context start.guard calls) ids) ∧ progress = none) ∧
          gather settings context (passing context start.guard calls) = .ok results)
          (ensures_ofExcept ?_ ?_) ?_
        · exact fun results gathered state holds => ⟨holds, gathered⟩
        · rintro error escaped state ⟨⟨checks, ids, grown, shared⟩, published⟩
          rcases gather_error escaped with ⟨handling, member, leaves⟩
          exact ⟨fun quiet => leaves (quiet.2.2.1 handling member),
            Behind.of_grown grown (fewer shared).1⟩
        · intro results
          refine ensures_of_fact fun gathered => ?_
          refine ensures_at fun state ⟨⟨checks, ids, grown, shared⟩, published⟩ => ?_
          rcases gather_ok gathered with ⟨named, told⟩
          have recorded := quietRecords_iff gathered
          have many : results.length = (passing context start.guard calls).length := by
            rw [← named, List.length_map]
          refine Ensures.weaken (ensures_recordResults results state) (fun _ same => same) ?_ ?_
          · rintro value after ⟨further, quietly⟩
            refine ⟨⟨checks, fun _ => published, fun handling member => ?_, recorded.mp quietly⟩,
              results, _, gathered, grown.trans further, ?_⟩
            · rw [← named] at member
              rcases List.mem_map.mp member with ⟨entry, listed, rfl⟩
              exact reportOf_ok_iff.mp ⟨entry.2, told entry listed⟩
            · unfold Shares at shared
              rw [← named, List.map_map] at shared
              exact shared
          · rintro error after ⟨noisy, behind⟩
            refine ⟨fun quiet => noisy (recorded.mpr quiet.2.2.2), (grown.behind behind).mono ?_⟩
            have total := (fewer shared).2
            omega

/-- All calls are answered, and the log tells which tools succeeded, exactly if no
callback that is asked raises, nothing leaves a running call, and no report of a
failure shows the mark of success. -/
theorem processToolCalls_iff (settings : ExecutorSettings) (context : ExecutionContext)
    (progress : Option PyError) (calls : List Handling) (start : ExecutorState) :
    Answers settings context calls start
        ((processToolCalls settings context progress calls).run.run start).2 <->
      Undisturbed settings context progress start.guard calls := by
  have ends := @ensures_processToolCalls settings context progress calls start start rfl
  generalize (processToolCalls settings context progress calls).run.run start = result at ends ⊢
  rcases result with ⟨result, after⟩
  cases result with
  | error error =>
    rcases ends with ⟨noisy, behind⟩
    refine iff_of_false (not_answers_of_behind behind) ?_
    intro undisturbed
    exact noisy ⟨undisturbed.checks, undisturbed.published, undisturbed.contained,
      undisturbed.recorded⟩
  | ok value =>
    rcases ends with ⟨quiet, results, ids, gathered, grown, shared⟩
    rcases gather_ok gathered with ⟨named, told⟩
    have honest : ∀ entry ∈ results, marked entry.2.output = entry.2.toolSuccess <->
        Honest entry.2 := fun entry member => marked_iff_honest (reportOf_ok (told entry member))
    constructor
    · intro answers
      refine ⟨quiet.1, quiet.2.1, quiet.2.2.1, quiet.2.2.2, ?_⟩
      intro present handling member reported given
      rcases answers.audited present with ⟨others, again, entered⟩
      cases gathered.symm.trans again
      have same := (grown.toolCalls present).symm.trans entered
      rw [← named] at member
      rcases List.mem_map.mp member with ⟨entry, listed, rfl⟩
      cases (told entry listed).symm.trans given
      have entries := List.map_inj_left.mp (List.append_cancel_left same) entry listed
      unfold runEntry at entries
      injection entries with _ _ _ _ _ recorded
      exact (honest entry listed).mp recorded
    · intro undisturbed
      constructor
      · rcases grown.messages with ⟨appended, same, named⟩
        exact ⟨appended, same, named ▸ shared⟩
      · intro present
        rcases grown.memory present with ⟨appended, same, named⟩
        exact ⟨appended, same, named ▸ shared⟩
      · intro present
        refine ⟨results, gathered, (grown.toolCalls present).trans ?_⟩
        refine congrArg (fun entries => start.toolCalls ++ entries) ?_
        refine List.map_congr_left ?_
        intro entry member
        have handled : entry.1 ∈ passing context start.guard calls := named ▸ List.mem_map_of_mem member
        rw [(honest entry member).mpr (undisturbed.honest present _ handled _ (told entry member))]

def ExecutorAudit.success : ExecutorAudit -> Option Bool
  | toolCall _ _ _ _ _ success => some success
  | _ => none

/-- A search fails after it has found the mark of success in a log. -/
def quotedMark : Handling where
  call := { id := "toolu_1", name := "file_search", arguments := .obj [("pattern", .str "success")] }
  now := 0
  approvalId := "a-1"
  execution :=
    { sandbox := .ok { success := true, output := "" }
      preHook := .ok .proceed
      validation := .ok []
      run := .ok { success := false, output := "agent.log: [success=True]; old.log: permission denied" }
      gap := .ok ""
      postHook := .ok "" }
  logSafetyCheck := none
  logApprovalRequest := none
  publishApproval := none
  logToolCall := none
  onNewTool := none
  addMessage := none

def plainSettings : ExecutorSettings where
  toolTimeout := 30
  sandbox := false
  hookRunner := false
  validator := false

def auditedContext : ExecutionContext where
  user := "U1"
  channel := "C1"
  workingMemory := false
  auditLogger := true
  toolGapDetector := false
  onNewToolDetected := false
  sanitizeText := id
  processBrowserResult := fun text => (text, [])

def freshExecutor : ExecutorState where
  messages := []
  memory := []
  auditLog := []
  approvals := []
  guard := {}

theorem quotedMark_misrecorded : Not (Answers plainSettings auditedContext [quotedMark]
    freshExecutor ((processToolCalls plainSettings auditedContext none [quotedMark]).run.run
      freshExecutor).2) := by
  intro answers
  rcases answers.audited rfl with ⟨results, gathered, entered⟩
  cases gathered
  have same := congrArg (fun entries => entries.map ExecutorAudit.success) entered
  exact absurd same (by decide)

end Agent
end BreadMind
