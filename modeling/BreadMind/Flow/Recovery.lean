import BreadMind.Execution.Programs
import BreadMind.Flow.Events
import Mathlib.Algebra.Order.Ring.Unbundled.Rat

namespace BreadMind
namespace Flow

open Execution

/-!
# The recovery controller

A failed step is retried by rule when its error looks transient and the
attempt number in the event is below the policy's bound.  Otherwise a
language model may propose a strategy, a bounded number of times for each
step, and what is left is escalated.

The controller handles one event at a time.  Every call it makes on the bus
or on the dispatcher may raise; a `Surroundings` fixes for one event which
calls do and what the language model answers.  The prompt is not modelled,
since nothing the controller decides depends on it.
-/

def transientMarkers : List String :=
  ["ConnectionError", "TimeoutError", "timeout", "Temporary", "TemporaryFailure", "EOF",
   "Connection reset", "429", " 500", " 502", " 503", " 504"]

/-- `text.lower()` as far as the markers can tell: they are ASCII, and no
character outside ASCII lowers to text that completes one of them. -/
def lowered (text : String) : List Char :=
  text.toList.map Char.toLower

def isTransientError (message : String) : Bool :=
  decide (message ≠ "") &&
    transientMarkers.any (fun marker => decide (lowered marker <:+: lowered message))

structure RetryPolicy where
  maxAttempts : Int := 3
  initialDelay : Rat := 1
  backoffFactor : Rat := 2
  maxDelay : Rat := 60
  maxLlmAttempts : Int := 3

/-- A float is too small for the number. -/
def floatOverflows (value : Rat) : Bool :=
  let limit : Rat := 2 ^ 1024 - 2 ^ 970
  decide (limit ≤ value) || decide (value ≤ -limit)

def RetryPolicy.delay (policy : RetryPolicy) (attempt : Int) : Except PyError Rat :=
  if floatOverflows ((attempt - 1 : Int) : Rat) then
    .error (.raised "OverflowError" "int too large to convert to float")
  else if policy.backoffFactor = 0 ∧ attempt < 1 then
    .error (.zeroDivisionError "0.0 cannot be raised to a negative power")
  else if floatOverflows (policy.backoffFactor ^ (attempt - 1)) then
    .error (.raised "OverflowError" "(34, 'Numerical result out of range')")
  else .ok (min (policy.initialDelay * policy.backoffFactor ^ (attempt - 1)) policy.maxDelay)

theorem RetryPolicy.delay_one (policy : RetryPolicy) :
    policy.delay 1 = .ok (min (policy.initialDelay * policy.backoffFactor ^ (0 : Int)) policy.maxDelay) := by
  have small : floatOverflows 0 = false ∧ floatOverflows 1 = false := by decide +kernel
  unfold RetryPolicy.delay
  rw [Int.sub_self, Rat.intCast_zero, Rat.zpow_zero, small.1, small.2, if_neg Bool.false_ne_true, if_neg,
    if_neg Bool.false_ne_true]
  rintro ⟨_, impossible⟩
  exact absurd impossible (by decide)

/-- The controller's caches, keyed by flow and step. -/
structure RecoveryController where
  stepCache : UUID × StepId -> Option StepDict := fun _ => none
  llmAttempts : UUID × StepId -> Nat := fun _ => 0

structure RecoveryConfig where
  policy : RetryPolicy := {}
  llm : Bool := false

inductive Layer where
  | rule
  | llm
  deriving DecidableEq

inductive RecoveryCall where
  | publish (event : FlowEvent)
  | redispatch (layer : Layer) (flowId : UUID) (stepId : StepId) (tool args : Json)

structure MadeCall where
  call : RecoveryCall
  raised : Option PyError

/-- What the outside contributes to handling one event.  The reply of the
language model is an exception, empty content, content which is not JSON, or
a JSON value. -/
structure Surroundings where
  raises : List MadeCall -> RecoveryCall -> Option PyError := fun _ _ => none
  chat : Except PyError (Option (Except String Json)) := .ok none
  repr : Json -> String := fun _ => ""

structure Session where
  controller : RecoveryController
  made : List MadeCall := []

abbrev Recovering (Value : Type) := Program Session PyError Value

variable (world : Surroundings)

def perform (call : RecoveryCall) : Recovering PUnit := do
  let session ← get
  let raised := world.raises session.made call
  modify fun session => { session with made := session.made ++ [⟨call, raised⟩] }
  match raised with
  | none => return ⟨⟩
  | some failure => throw failure

theorem perform_run (call : RecoveryCall) (session : Session) :
    (perform world call).run.run session = ((match world.raises session.made call with
        | none => .ok ⟨⟩
        | some failure => .error failure),
        { session with made := session.made ++ [⟨call, world.raises session.made call⟩] }) := by
  change (match world.raises session.made call with
    | none => (pure ⟨⟩ : Recovering PUnit)
    | some failure => throw failure).run.run _ = _
  cases world.raises session.made call <;> rfl

variable (flowId : UUID)

def recoveryEvent (kind : EventType) (payload : Payload) : FlowEvent :=
  { flowId, eventType := kind, payload, actor := .recovery }

variable (sid : StepId)

def publishRecoveryAttempt (strategy : String) (context : Json) : Recovering PUnit :=
  perform world (.publish (recoveryEvent flowId .recoveryAttempted
    { stepId := some sid, strategy := some strategy, context := some context }))

def requeueStep (attempt : Int) : Recovering PUnit :=
  perform world (.publish (recoveryEvent flowId .stepQueued
    { stepId := some sid, attempt := some (.ok attempt) }))

def escalate (reason error : String) : Recovering PUnit :=
  perform world (.publish (recoveryEvent flowId .escalationRaised
    { stepId := some sid, reason := some reason, error := some error
      context := some (.obj [("recovery_layer", .int 1)]) }))

/-! ## The language model layer -/

inductive Strategy where
  | retryWithModifiedArgs
  | replaceStepWithAlternative
  | skipAndContinue
  | escalate

def Strategy.parse : Json -> Option Strategy
  | .str "retry_with_modified_args" => some .retryWithModifiedArgs
  | .str "replace_step_with_alternative" => some .replaceStepWithAlternative
  | .str "skip_and_continue" => some .skipAndContinue
  | .str "escalate" => some .escalate
  | _ => none

def Surroundings.formatted : Json -> String
  | .str text => text
  | other => world.repr other

def cacheStep (key : UUID × StepId) (step : StepDict) : Recovering PUnit :=
  modify fun session =>
    { session with controller :=
      { session.controller with
        stepCache := Function.update session.controller.stepCache key (some step) } }

variable (step : StepDict)

/-- The two strategies which launch the step again differ in the tool. -/
def relaunch
    (attempt : Int) (strategy : String) (tool args : Json) (context : Json) : Recovering PUnit := do
  cacheStep (flowId, sid) step
  publishRecoveryAttempt world flowId sid strategy context
  requeueStep world flowId sid (attempt + 1)
  perform world (.redispatch .llm flowId sid tool args)

variable (error : String)

/-- Apply a plan which names a valid strategy. -/
def applyStrategy (attempt : Int) (plan reasoning : Json) : Strategy -> Recovering PUnit
  | .retryWithModifiedArgs => do
    let args := (← Program.ofExcept (plan.get "args")).getD .null
    if args.isDict then
      relaunch world flowId sid { step with args := some args } attempt
        "llm_retry_with_modified_args" (step.tool.getD .null) args
        (.obj [("reasoning", reasoning), ("args", args)])
    else throw (.valueError "retry_with_modified_args missing 'args' object")
  | .replaceStepWithAlternative => do
    let tool := (← Program.ofExcept (plan.get "tool")).getD .null
    let args := (← Program.ofExcept (plan.get "args")).getD .null
    if tool.truthy && args.isDict then
      relaunch world flowId sid { step with tool := some tool, args := some args } attempt
        "llm_replace_step_with_alternative" tool args
        (.obj [("reasoning", reasoning), ("tool", tool), ("args", args)])
    else throw (.valueError "replace_step_with_alternative missing 'tool' or 'args'")
  | .skipAndContinue => do
    publishRecoveryAttempt world flowId sid "llm_skip_and_continue" (.obj [("reasoning", reasoning)])
    let reason := if reasoning.truthy then reasoning else .str "llm skip_and_continue"
    perform world (.publish (recoveryEvent flowId .stepCompleted
      { stepId := some sid
        result := some (.obj [("skipped", .bool true), ("reason", reason)]) }))
  | .escalate => do
    publishRecoveryAttempt world flowId sid "llm_escalate" (.obj [("reasoning", reasoning)])
    let reason :=
      if reasoning.truthy then "llm escalate: " ++ world.formatted reasoning else "llm escalate"
    escalate world flowId sid reason error

def llmRecover (attempt : Int) : Recovering PUnit := do
  match ← Program.ofExcept world.chat with
  | none => throw (.valueError "llm returned empty content")
  | some (.error message) => throw (.valueError ("llm response not valid JSON: " ++ message))
  | some (.ok plan) =>
    let strategy := (← Program.ofExcept (plan.get "strategy")).getD .null
    let reasoning := (← Program.ofExcept (plan.get "reasoning")).getD (.str "")
    match Strategy.parse strategy with
    | none => throw (.valueError ("unknown recovery strategy: " ++ world.repr strategy))
    | some known => applyStrategy world flowId sid step error attempt plan reasoning known

def countLlmAttempt (key : UUID × StepId) (used : Nat) : Recovering PUnit :=
  modify fun session =>
    { session with controller :=
      { session.controller with
        llmAttempts := Function.update session.controller.llmAttempts key (used + 1) } }

variable (config : RecoveryConfig)

/-- Whether the language model layer took over, be it by escalating. -/
def maybeLlmRecover (world : Surroundings) (flowId : UUID) (sid : StepId)
    (error : String) (attempt : Int) : Recovering Bool := do
  let controller := (← get).controller
  let key := (flowId, sid)
  let used := controller.llmAttempts key
  if !config.llm || decide (config.policy.maxLlmAttempts ≤ used) then return false
  else
    match controller.stepCache key with
    | none => return false
    | some step =>
      countLlmAttempt key used
      tryCatch
        (do llmRecover world flowId sid step error attempt; return true)
        (fun failure => do
          escalate world flowId sid "llm recovery error" failure.text
          return true)

/-- `int(event.payload.get("attempt", 1))`, with 1 for a value which is not a number. -/
def attemptOf (event : FlowEvent) : Except PyError Int :=
  match event.payload.attempt with
  | none => .ok 1
  | some (.ok attempt) => .ok attempt
  | some (.error (.typeError _)) => .ok 1
  | some (.error (.valueError _)) => .ok 1
  | some (.error failure) => .error failure

def orEscalate (world : Surroundings) (flowId : UUID) (sid : StepId)
    (error : String) (attempt : Int) (reason : String) : Recovering PUnit := do
  if ← maybeLlmRecover config world flowId sid error attempt then return ⟨⟩
  else escalate world flowId sid reason error

def ruleRetry (world : Surroundings) (flowId : UUID) (sid : StepId)
    (error : String) (attempt : Int) : Recovering PUnit := do
  let delay ← Program.ofExcept (config.policy.delay attempt)
  perform world (.publish (recoveryEvent flowId .recoveryAttempted
    { stepId := some sid, strategy := some "rule_retry", attempt := some (.ok (attempt + 1))
      delay := some delay }))
  match (← get).controller.stepCache (flowId, sid) with
  | none => escalate world flowId sid "step definition unavailable" error
  | some step =>
    requeueStep world flowId sid (attempt + 1)
    tryCatch
      (perform world (.redispatch .rule flowId sid (step.tool.getD .null)
        (step.args.getD (.obj [])).orEmpty))
      (fun failure => escalate world flowId sid "retry dispatch failed" failure.text)

def tryRecover (world : Surroundings) (event : FlowEvent) : Recovering PUnit := do
  let sid ← Program.ofExcept
    (match event.payload.stepId with
      | none => .error (.keyError "step_id")
      | some sid => .ok sid)
  let error := event.payload.error.getD ""
  let attempt ← Program.ofExcept (attemptOf event)
  if !isTransientError error then
    orEscalate config world event.flowId sid error attempt "non-transient error"
  else if config.policy.maxAttempts ≤ attempt then
    orEscalate config world event.flowId sid error attempt "max attempts exceeded"
  else ruleRetry config world event.flowId sid error attempt

/-- `_handle`: a proposal fills the cache with its entries, the later one of
two with the same identifier staying. -/
def recoverHandle (world : Surroundings) (event : FlowEvent) : Recovering PUnit :=
  match event.eventType with
  | .dagProposed =>
    forM (event.payload.steps.getD []) fun step =>
      match step.id with
      | none => pure ⟨⟩
      | some sid => cacheStep (event.flowId, sid) step
  | .stepFailed => tryRecover config world event
  | _ => pure ⟨⟩

/-! ## What handling an event can launch -/

def MadeCall.relaunch : MadeCall -> Option (Layer × UUID × StepId)
  | ⟨.redispatch layer flowId sid _ _, _⟩ => some (layer, flowId, sid)
  | _ => none

def MadeCall.reportsFailure : MadeCall -> Bool
  | ⟨.publish event, _⟩ => decide (event.eventType = .stepFailed)
  | _ => false

/-- What the budget depends on: the language model counters, the dispatches
made, and whether a failed step was reported. -/
structure View where
  attempts : UUID × StepId -> Nat
  launched : List (Layer × UUID × StepId)
  reported : Bool

def Session.view (session : Session) : View where
  attempts := session.controller.llmAttempts
  launched := session.made.filterMap MadeCall.relaunch
  reported := session.made.any MadeCall.reportsFailure

variable (view : View)

def View.launch (launched : Layer × UUID × StepId) : View :=
  { view with launched := view.launched ++ [launched] }

def View.count (key : UUID × StepId) : View :=
  { view with attempts := Function.update view.attempts key (view.attempts key + 1) }

theorem View.count_attempts_same (key : UUID × StepId) :
    (view.count key).attempts key = view.attempts key + 1 :=
  Function.update_self _ _ _

theorem View.count_attempts_other {key other : UUID × StepId}
    (different : other ≠ key) : (view.count key).attempts other = view.attempts other :=
  Function.update_of_ne different _ _

/-- A program which leaves the view alone, whether it returns or raises. -/
def Quiet {Value : Type} (program : Recovering Value) : Prop :=
  ∀ property : View -> Prop, Ensures (fun session => property session.view) program
    (fun _ session => property session.view) (fun _ session => property session.view)

def LaunchesOnce {Value : Type} (launched : Layer × UUID × StepId) (program : Recovering Value) :
    Prop :=
  ∀ view, Ensures (fun session => session.view = view) program
    (fun _ session => session.view = view ∨ session.view = view.launch launched)
    (fun _ session => session.view = view ∨ session.view = view.launch launched)

section Rules

variable {world : Surroundings} {Value Result : Type} {launched : Layer × UUID × StepId}

theorem perform_ensures (world : Surroundings) (call : RecoveryCall) (change : View -> View)
    (changes : ∀ (session : Session) raised,
      ({ session with made := session.made ++ [⟨call, raised⟩] } : Session).view =
        change session.view) (property : View -> Prop) :
    Ensures (fun session => property (change session.view)) (perform world call)
      (fun _ session => property session.view) (fun _ session => property session.view) := by
  refine Program.ensures_bind _ Program.ensures_get ?_
  intro session
  refine Program.ensures_bind (fun _ session => property session.view)
    (Program.ensures_modify ?_) ?_
  · rintro state ⟨holds, _⟩
    rw [changes]
    exact holds
  · intro _
    cases world.raises session.made call with
    | none => exact Program.ensures_pure (fun _ holds => holds)
    | some failure => exact Program.ensures_throw (fun _ holds => holds)

theorem publish_quiet {event : FlowEvent} (honest : event.eventType ≠ .stepFailed) :
    Quiet (perform world (.publish event)) := by
  refine perform_ensures world _ id ?_
  intro session raised
  have silent : decide (event.eventType = .stepFailed) = false := decide_eq_false honest
  simp only [Session.view, List.filterMap_append, List.filterMap_cons, List.filterMap_nil,
    MadeCall.relaunch, List.append_nil, List.any_append, List.any_cons, List.any_nil,
    MadeCall.reportsFailure, silent, Bool.or_false, id]

theorem redispatch_launchesOnce (layer : Layer) (flowId : UUID) (sid : StepId) (tool args : Json) :
    LaunchesOnce (layer, flowId, sid) (perform world (.redispatch layer flowId sid tool args)) := by
  intro view
  have launches := perform_ensures world (.redispatch layer flowId sid tool args)
    (fun view => view.launch (layer, flowId, sid)) (by
      intro session raised
      simp only [Session.view, View.launch, List.filterMap_append, List.filterMap_cons,
        List.filterMap_nil, MadeCall.relaunch, List.any_append, List.any_cons, List.any_nil,
        MadeCall.reportsFailure, Bool.or_false])
    (fun after => after = view.launch (layer, flowId, sid))
  exact Program.Ensures.weaken launches
    (fun _ same => congrArg (fun seen => View.launch seen (layer, flowId, sid)) same)
    (fun _ _ => Or.inr) (fun _ _ => Or.inr)

variable {first : Recovering Value} {next : Value -> Recovering Result}

theorem quiet_bind
    (starts : Quiet first) (goesOn : ∀ value, Quiet (next value)) : Quiet (first >>= next) :=
  fun property => Program.keeps_bind (starts property) (fun value => goesOn value property)

theorem quiet_throw (failure : PyError) : Quiet (throw failure : Recovering Value) :=
  fun _ => Program.keeps_throw failure

theorem quiet_pure (value : Value) : Quiet (pure value : Recovering Value) :=
  fun _ => Program.keeps_pure value

theorem quiet_ofExcept (computed : Except PyError Value) : Quiet (Program.ofExcept computed) :=
  fun _ => Program.keeps_ofExcept computed

theorem quiet_forM {Item : Type} {check : Item -> Recovering PUnit}
    (quiet : ∀ item, Quiet (check item)) (items : List Item) : Quiet (forM items check) :=
  fun property => Program.keeps_forM (fun item => quiet item property) items

theorem cacheStep_quiet (key : UUID × StepId) (step : StepDict) : Quiet (cacheStep key step) :=
  fun _ => Program.ensures_modify (fun _ holds => holds)

theorem publishRecoveryAttempt_quiet (flowId : UUID) (sid : StepId) (strategy : String)
    (context : Json) : Quiet (publishRecoveryAttempt world flowId sid strategy context) :=
  publish_quiet (by intro same; cases same)

theorem requeueStep_quiet (flowId : UUID) (sid : StepId) (attempt : Int) :
    Quiet (requeueStep world flowId sid attempt) :=
  publish_quiet (by intro same; cases same)

theorem escalate_quiet (world : Surroundings) (flowId : UUID) (sid : StepId) (reason error : String) :
    Quiet (escalate world flowId sid reason error) :=
  publish_quiet (by intro same; cases same)

theorem Quiet.launchesOnce {program : Recovering Value} (quiet : Quiet program) :
    LaunchesOnce launched program :=
  fun view => Program.Ensures.weaken (quiet (fun after => after = view)) (fun _ same => same)
    (fun _ _ => Or.inl) (fun _ _ => Or.inl)

theorem launchesOnce_after
    (starts : Quiet first) (goesOn : ∀ value, LaunchesOnce launched (next value)) :
    LaunchesOnce launched (first >>= next) :=
  fun view => Program.ensures_bind _
    (Program.Ensures.raise (starts (fun after => after = view)) (fun _ _ => Or.inl))
    (fun value => goesOn value view)

theorem launchesOnce_before
    (once : LaunchesOnce launched first) (quiet : ∀ value, Quiet (next value)) :
    LaunchesOnce launched (first >>= next) :=
  fun view => Program.ensures_bind _ (once view)
    (fun value => quiet value (fun after => after = view ∨ after = view.launch launched))

theorem launchesOnce_tryCatch {body : Recovering Value} {handler : PyError -> Recovering Value}
    (once : LaunchesOnce launched body) (quiet : ∀ failure, Quiet (handler failure)) :
    LaunchesOnce launched (tryCatch body handler) :=
  fun view => Program.ensures_tryCatch (once view) fun failure =>
    Program.Ensures.start (quiet failure (fun after => after = view ∨ after = view.launch launched))
      (fun _ holds => holds)

theorem quiet_get : Quiet (get : Recovering Session) :=
  fun _ => Program.keeps_get

end Rules

theorem relaunch_launchesOnce (attempt : Int) (strategy : String) (tool args context : Json) :
    LaunchesOnce (.llm, flowId, sid)
      (relaunch world flowId sid step attempt strategy tool args context) :=
  launchesOnce_after (cacheStep_quiet _ _) fun _ =>
    launchesOnce_after (publishRecoveryAttempt_quiet _ _ _ _) fun _ =>
      launchesOnce_after (requeueStep_quiet _ _ _) fun _ =>
        redispatch_launchesOnce _ _ _ _ _

theorem applyStrategy_launchesOnce (attempt : Int) (plan reasoning : Json) (strategy : Strategy) :
    LaunchesOnce (.llm, flowId, sid)
      (applyStrategy world flowId sid step error attempt plan reasoning strategy) := by
  cases strategy with
  | retryWithModifiedArgs =>
    refine launchesOnce_after (quiet_ofExcept _) fun given => ?_
    dsimp only
    split
    · exact relaunch_launchesOnce _ _ _ _ _ _ _ _ _
    · exact (quiet_throw _).launchesOnce
  | replaceStepWithAlternative =>
    refine launchesOnce_after (quiet_ofExcept _) fun tool => ?_
    refine launchesOnce_after (quiet_ofExcept _) fun args => ?_
    dsimp only
    split
    · exact relaunch_launchesOnce _ _ _ _ _ _ _ _ _
    · exact (quiet_throw _).launchesOnce
  | skipAndContinue =>
    refine (quiet_bind (publishRecoveryAttempt_quiet _ _ _ _) fun _ => ?_).launchesOnce
    exact publish_quiet (by intro same; cases same)
  | escalate =>
    refine (quiet_bind (publishRecoveryAttempt_quiet _ _ _ _) fun _ => ?_).launchesOnce
    exact escalate_quiet _ _ _ _ _

theorem llmRecover_launchesOnce (attempt : Int) :
    LaunchesOnce (.llm, flowId, sid) (llmRecover world flowId sid step error attempt) := by
  refine launchesOnce_after (quiet_ofExcept _) fun content => ?_
  rcases content with _ | parsed
  · exact (quiet_throw _).launchesOnce
  · cases parsed with
    | error message => exact (quiet_throw _).launchesOnce
    | ok plan =>
      refine launchesOnce_after (quiet_ofExcept _) fun strategy => ?_
      refine launchesOnce_after (quiet_ofExcept _) fun reasoning => ?_
      dsimp only
      split
      · exact (quiet_throw _).launchesOnce
      · exact applyStrategy_launchesOnce _ _ _ _ _ _ _ _ _

inductive Recovered (config : RecoveryConfig) (key : UUID × StepId) (retriable : Prop)
    (before : View) : View -> Prop where
  | settled : Recovered config key retriable before before
  | retried (allowed : retriable) :
      Recovered config key retriable before (before.launch (.rule, key))
  | consulted (within : (before.attempts key : Int) < config.policy.maxLlmAttempts) :
      Recovered config key retriable before (before.count key)
  | advised (within : (before.attempts key : Int) < config.policy.maxLlmAttempts) :
      Recovered config key retriable before ((before.count key).launch (.llm, key))

theorem maybeLlmRecover_view (world : Surroundings) (flowId : UUID)
    (sid : StepId) (error : String) (attempt : Int) (retriable : Prop) (view : View) :
    Ensures (fun session => session.view = view)
      (maybeLlmRecover config world flowId sid error attempt)
      (fun _ session => Recovered config (flowId, sid) retriable view session.view)
      (fun _ session => Recovered config (flowId, sid) retriable view session.view) := by
  refine Program.ensures_bind _ Program.ensures_get fun session => ?_
  refine Program.Ensures.start (Program.ensures_of_fact (fun same : session.view = view => ?_))
    (fun after holds => ⟨holds.1, holds.2 ▸ holds.1⟩)
  have settles : Program.Reaches (fun after => after.view = view)
      (fun after => Recovered config (flowId, sid) retriable view after.view)
      (pure false : Recovering Bool) :=
    Program.ensures_pure (fun after unchanged => unchanged ▸ .settled)
  dsimp only
  by_cases spent : (!config.llm || decide (config.policy.maxLlmAttempts ≤
      session.controller.llmAttempts (flowId, sid))) = true
  · rw [if_pos spent]
    exact settles
  · rw [if_neg spent]
    have within : (view.attempts (flowId, sid) : Int) < config.policy.maxLlmAttempts := by
      rw [← same]
      refine Int.not_le.mp fun bound => spent ?_
      rw [Bool.or_eq_true, decide_eq_true_eq]
      exact .inr bound
    cases session.controller.stepCache (flowId, sid) with
    | none => exact settles
    | some step =>
      refine Program.ensures_bind (fun _ after => after.view = view.count (flowId, sid))
        (Program.ensures_modify ?_) fun _ => ?_
      · intro after unchanged
        have counters : session.controller.llmAttempts = after.controller.llmAttempts :=
          congrArg View.attempts (same.trans unchanged.symm)
        rw [← unchanged, counters]
        rfl
      · have once := launchesOnce_tryCatch
          (launchesOnce_before (llmRecover_launchesOnce world flowId sid step error attempt) fun _ =>
            quiet_pure true)
          (fun failure => quiet_bind
            (escalate_quiet world flowId sid "llm recovery error" failure.text) fun _ =>
              quiet_pure true)
        have recovered : ∀ after : Session, after.view = view.count (flowId, sid) ∨
            after.view = (view.count (flowId, sid)).launch (.llm, flowId, sid) ->
            Recovered config (flowId, sid) retriable view after.view := by
          intro after outcome
          rcases outcome with counted | advised
          · exact counted ▸ .consulted within
          · exact advised ▸ .advised within
        exact Program.Ensures.weaken (once (view.count (flowId, sid))) (fun _ holds => holds)
          (fun _ => recovered) (fun _ => recovered)

theorem orEscalate_view (world : Surroundings) (flowId : UUID)
    (sid : StepId) (error : String) (attempt : Int) (reason : String) (retriable : Prop)
    (view : View) : Ensures (fun session => session.view = view)
      (orEscalate config world flowId sid error attempt reason)
      (fun _ session => Recovered config (flowId, sid) retriable view session.view)
      (fun _ session => Recovered config (flowId, sid) retriable view session.view) := by
  refine Program.ensures_bind _
    (maybeLlmRecover_view config world flowId sid error attempt retriable view) fun taken => ?_
  cases taken with
  | true => exact quiet_pure _ _
  | false => exact escalate_quiet _ _ _ _ _ _

theorem ruleRetry_view (world : Surroundings) (flowId : UUID)
    (sid : StepId) (error : String) (attempt : Int) {retriable : Prop} (allowed : retriable)
    (view : View) : Ensures (fun session => session.view = view)
      (ruleRetry config world flowId sid error attempt)
      (fun _ session => Recovered config (flowId, sid) retriable view session.view)
      (fun _ session => Recovered config (flowId, sid) retriable view session.view) := by
  have once : LaunchesOnce (.rule, flowId, sid)
      (ruleRetry config world flowId sid error attempt) := by
    refine launchesOnce_after (quiet_ofExcept _) fun delay => ?_
    refine launchesOnce_after (publish_quiet (by intro same; cases same)) fun _ => ?_
    refine launchesOnce_after quiet_get fun session => ?_
    cases session.controller.stepCache (flowId, sid) with
    | none => exact (escalate_quiet _ _ _ _ _).launchesOnce
    | some step =>
      refine launchesOnce_after (requeueStep_quiet _ _ _) fun _ => ?_
      exact launchesOnce_tryCatch (redispatch_launchesOnce _ _ _ _ _)
        (fun failure => escalate_quiet _ _ _ _ _)
  have recovered : ∀ after : Session, after.view = view ∨
      after.view = view.launch (.rule, flowId, sid) ->
      Recovered config (flowId, sid) retriable view after.view := by
    intro after outcome
    rcases outcome with unchanged | retried
    · exact unchanged ▸ .settled
    · exact retried ▸ .retried allowed
  exact Program.Ensures.weaken (once view) (fun _ same => same)
    (fun _ => recovered) (fun _ => recovered)

/-- The failure is transient and its attempt number is below the bound. -/
def Retriable (event : FlowEvent) : Prop :=
  isTransientError (event.payload.error.getD "") = true ∧
    ∃ attempt, attemptOf event = .ok attempt ∧ attempt < config.policy.maxAttempts

theorem tryRecover_view (world : Surroundings) (event : FlowEvent)
    {sid : StepId} (named : event.payload.stepId = some sid) (view : View) :
    Ensures (fun session => session.view = view) (tryRecover config world event) (fun _ session =>
        Recovered config (event.flowId, sid) (Retriable config event) view session.view)
      (fun _ session =>
        Recovered config (event.flowId, sid) (Retriable config event) view session.view) := by
  unfold tryRecover
  rw [named]
  simp only [Program.ofExcept, pure_bind]
  cases read : attemptOf event with
  | error failure => exact Program.ensures_throw (fun _ unchanged => unchanged ▸ .settled)
  | ok attempt =>
    simp only [pure_bind]
    cases transient : isTransientError (event.payload.error.getD "") with
    | false => exact orEscalate_view _ _ _ _ _ _ _ _ _
    | true =>
      by_cases spent : config.policy.maxAttempts ≤ attempt
      · simp only [spent, if_true, Bool.not_true, Bool.false_eq_true, if_false]
        exact orEscalate_view _ _ _ _ _ _ _ _ _
      · simp only [spent, Bool.not_true, Bool.false_eq_true, if_false]
        exact ruleRetry_view _ _ _ _ _ _ ⟨transient, attempt, read, Int.not_le.mp spent⟩ _

theorem recoverHandle_view (world : Surroundings) (event : FlowEvent) (session : Session) :
    ((recoverHandle config world event).run.run session).2.view = session.view ∨
      (event.eventType = .stepFailed ∧ ∃ sid, event.payload.stepId = some sid ∧
        Recovered config (event.flowId, sid) (Retriable config event) session.view
          ((recoverHandle config world event).run.run session).2.view) := by
  have stays : Quiet (recoverHandle config world event) ->
      ((recoverHandle config world event).run.run session).2.view = session.view :=
    fun quiet => Program.Ensures.after (quiet (fun after => after = session.view)) rfl
  cases kind : event.eventType with
  | dagProposed =>
    refine .inl (stays ?_)
    unfold recoverHandle
    rw [kind]
    refine quiet_forM (fun step => ?_) _
    cases step.id with
    | none => exact quiet_pure _
    | some sid => exact cacheStep_quiet _ _
  | stepFailed =>
    cases named : event.payload.stepId with
    | none =>
      refine .inl (stays ?_)
      unfold recoverHandle tryRecover
      rw [kind, named]
      exact fun _ _ holds => holds
    | some sid =>
      refine .inr ⟨rfl, sid, rfl, ?_⟩
      unfold recoverHandle
      rw [kind]
      exact Program.Ensures.after (tryRecover_view config world event named session.view) rfl
  | _ =>
    refine .inl (stays ?_)
    unfold recoverHandle
    rw [kind]
    exact quiet_pure _

end Flow
end BreadMind
