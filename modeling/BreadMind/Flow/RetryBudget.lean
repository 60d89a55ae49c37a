import BreadMind.Flow.CeleryTasks
import BreadMind.Flow.Engine
import BreadMind.Flow.Recovery

namespace BreadMind
namespace Flow

open Execution

/-!
# The budget of retries

The controller bounds rule retries by the attempt number of the failure it
handles.  That number has to travel from the controller through the
dispatcher and the worker back to the controller.  The task which the
dispatcher sends has no field for it, and the worker reports every failure as
the first attempt, so each failure is judged as if it were the first.

The loop below has three parties: the controller, the broker with the tasks
sent so far, and the bus with the events published so far.  A task may be
executed again, since it is acknowledged late, and an event may reach the
controller again through the Redis backplane or not at all; so each input
picks any task or any event.
-/

structure RetryLoop where
  controller : RecoveryController := {}
  bus : List FlowEvent := []
  broker : List StepTask := []

inductive LoopInput where
  /-- Another party publishes an event which is not a failure. -/
  | publish (event : FlowEvent)
  /-- The engine launches a step; the dispatcher may refuse. -/
  | launch (flowId : UUID) (stepId : StepId) (tool args : Json) (refused : Option PyError)
  | execute (task : Nat) (outcome : ToolOutcome) (publishes : FlowEvent -> Bool)
  | handle (event : Nat) (world : Surroundings)

def MadeCall.published : MadeCall -> Option FlowEvent
  | ⟨.publish event, none⟩ => some event
  | _ => none

def MadeCall.sent : MadeCall -> Option StepTask
  | ⟨.redispatch _ flowId sid tool args, none⟩ =>
    some (CeleryStepDispatcher.payload flowId sid tool args)
  | _ => none

variable (config : RecoveryConfig)

def recoverySession (world : Surroundings)
    (controller : RecoveryController) (event : FlowEvent) : Session :=
  ((recoverHandle config world event).run.run { controller }).2

def RetryLoop.step (config : RecoveryConfig) (loop : RetryLoop) : LoopInput -> RetryLoop
  | .publish event =>
    if event.eventType = .stepFailed then loop else { loop with bus := loop.bus ++ [event] }
  | .launch flowId sid tool args none =>
    { loop with broker := loop.broker ++ [CeleryStepDispatcher.payload flowId sid tool args] }
  | .launch flowId sid _ _ (some failure) =>
    { loop with bus := loop.bus ++ [dispatchFailedEvent flowId sid failure] }
  | .execute index outcome publishes =>
    match loop.broker[index]? with
    | none => loop
    | some task => { loop with bus := loop.bus ++ executeFlowStep task outcome publishes }
  | .handle index world =>
    match loop.bus[index]? with
    | none => loop
    | some event =>
      let session := recoverySession config world loop.controller event
      { controller := session.controller
        bus := loop.bus ++ session.made.filterMap MadeCall.published
        broker := loop.broker ++ session.made.filterMap MadeCall.sent }

def loopMachine : Machine RetryLoop LoopInput where
  initial := {}
  step := RetryLoop.step config

inductive HistoryEntry where
  | received (event : FlowEvent)
  | made (call : MadeCall)

variable (loop : RetryLoop)

def handledEntries : LoopInput -> List HistoryEntry
  | .handle index world =>
    match loop.bus[index]? with
    | none => []
    | some event =>
      .received event ::
        (recoverySession config world loop.controller event).made.map .made
  | _ => []

def recoveryHistory (inputs : List LoopInput) : List HistoryEntry :=
  (loopMachine config).outputs (handledEntries config) inputs

section Step

variable (flowId : UUID) (sid : StepId)

def HistoryEntry.escalates : HistoryEntry -> Bool
  | .made ⟨.publish event, none⟩ =>
    decide (event.eventType = .escalationRaised ∧ event.flowId = flowId ∧
      event.payload.stepId = some sid)
  | _ => false

def HistoryEntry.relaunches (layer : Layer) : HistoryEntry -> Bool
  | .made ⟨.redispatch source flow step _ _, _⟩ =>
    decide (source = layer ∧ flow = flowId ∧ step = sid)
  | _ => false

def HistoryEntry.failsTransiently : HistoryEntry -> Bool
  | .received event =>
    decide (event.eventType = .stepFailed ∧ event.flowId = flowId ∧
      event.payload.stepId = some sid) && isTransientError (event.payload.error.getD "")
  | .made _ => false

/-- The history up to the first escalation of the step. -/
def beforeEscalation (history : List HistoryEntry) : List HistoryEntry :=
  history.takeWhile (fun entry => !entry.escalates flowId sid)

/-- How often the controller dispatched the step again before it escalated it. -/
def relaunchCount (layer : Layer) (history : List HistoryEntry) : Nat :=
  (beforeEscalation flowId sid history).countP (HistoryEntry.relaunches flowId sid layer)

/-- How many transient failures of the step it handled before it escalated it. -/
def transientFailures (history : List HistoryEntry) : Nat :=
  (beforeEscalation flowId sid history).countP (HistoryEntry.failsTransiently flowId sid)

/-- The policy's bounds on the retries of one step. -/
def RetriesBounded (policy : RetryPolicy) (history : List HistoryEntry) : Prop :=
  relaunchCount flowId sid .rule history ≤ (policy.maxAttempts - 1).toNat ∧
    relaunchCount flowId sid .llm history ≤ policy.maxLlmAttempts.toNat

end Step

/-! ## Every failure is reported as the first attempt -/

def FirstAttempts : Prop :=
  ∀ event ∈ loop.bus, event.eventType = .stepFailed ->
    event.payload.attempt = some (.ok 1)

theorem Recovered.reported_eq {config : RecoveryConfig} {key : UUID × StepId} {retriable : Prop}
    {before after : View} (recovered : Recovered config key retriable before after) :
    after.reported = before.reported := by
  cases recovered <;> rfl

theorem recoverySession_reported (world : Surroundings)
    (controller : RecoveryController) (event : FlowEvent) :
    (recoverySession config world controller event).made.any MadeCall.reportsFailure = false := by
  change (recoverySession config world controller event).view.reported = false
  rcases recoverHandle_view config world event { controller } with unchanged |
    ⟨_, sid, _, recovered⟩
  · exact congrArg View.reported unchanged
  · exact recovered.reported_eq

theorem firstAttempts_step (input : LoopInput)
    (first : FirstAttempts loop) : FirstAttempts (loop.step config input) := by
  cases input with
  | publish event =>
    simp only [RetryLoop.step]
    split
    · exact first
    · rename_i honest
      intro other member kind
      rcases List.mem_append.mp member with earlier | last
      · exact first other earlier kind
      · exact False.elim (honest (List.mem_singleton.mp last ▸ kind))
  | launch flowId sid tool args refused =>
    cases refused with
    | none => exact first
    | some failure =>
      intro other member kind
      rcases List.mem_append.mp member with earlier | last
      · exact first other earlier kind
      · rw [List.mem_singleton.mp last]
        rfl
  | execute index outcome publishes =>
    simp only [RetryLoop.step]
    split
    · exact first
    · rename_i task _
      intro other member kind
      rcases List.mem_append.mp member with earlier | last
      · exact first other earlier kind
      · rcases List.mem_cons.mp (List.mem_of_mem_filter last) with started | rest
        · rw [started] at kind
          cases kind
        · rw [List.mem_singleton.mp rest] at kind ⊢
          cases outcome with
          | returned result durationMs => cases kind
          | raised typeName message => rfl
  | handle index world =>
    simp only [RetryLoop.step]
    split
    · exact first
    · rename_i event _
      intro other member kind
      rcases List.mem_append.mp member with earlier | last
      · exact first other earlier kind
      · rcases List.mem_filterMap.mp last with ⟨call, made, published⟩
        have honest := List.any_eq_false.mp
          (recoverySession_reported config world loop.controller event) call made
        rcases call with ⟨call, raised⟩
        cases call with
        | redispatch layer flowId sid tool args => cases published
        | publish sent =>
          cases raised with
          | some failure => cases published
          | none =>
            cases published
            exact False.elim (honest (decide_eq_true kind))

theorem firstAttempts_after (inputs : List LoopInput) :
    FirstAttempts ((loopMachine config).after inputs) :=
  (loopMachine config).invariant_after FirstAttempts (fun event member => by cases member)
    (fun loop input first => firstAttempts_step config loop input first) inputs

section Step

variable {flowId : UUID} {sid : StepId}

theorem countP_relaunches (layer : Layer) (made : List MadeCall) :
    (made.map HistoryEntry.made).countP (HistoryEntry.relaunches flowId sid layer) =
      (made.filterMap MadeCall.relaunch).count (layer, flowId, sid) := by
  induction made with
  | nil => rfl
  | cons call rest ih =>
    rcases call with ⟨call, raised⟩
    rw [List.map_cons, List.countP_cons, ih]
    cases call with
    | publish event => rfl
    | redispatch source flow step tool args =>
      rw [List.filterMap_cons_some (f := MadeCall.relaunch) (b := (source, flow, step)) rfl,
        List.count_cons]
      have same : HistoryEntry.relaunches flowId sid layer
          (.made ⟨.redispatch source flow step tool args, raised⟩) =
          ((source, flow, step) == (layer, flowId, sid)) := by
        rw [Bool.eq_iff_iff, beq_iff_eq, Prod.mk.injEq, Prod.mk.injEq]
        exact decide_eq_true_iff
      rw [same]

variable {config : RecoveryConfig}

variable (flowId sid) in
theorem Recovered.launched_rule {key : UUID × StepId} {retriable : Prop}
    {before after : View} (empty : before.launched = [])
    (recovered : Recovered config key retriable before after) :
    after.launched.count (.rule, flowId, sid) = 0 ∨
      (after.launched.count (.rule, flowId, sid) = 1 ∧ key = (flowId, sid) ∧ retriable) := by
  cases recovered with
  | settled => exact Or.inl (by rw [empty]; rfl)
  | consulted => exact Or.inl (by rw [View.count, empty]; rfl)
  | retried allowed =>
    rw [View.launch, empty, List.nil_append, List.count_singleton]
    by_cases same : key = (flowId, sid)
    · subst same
      exact Or.inr ⟨if_pos (beq_self_eq_true _), rfl, allowed⟩
    · refine Or.inl (if_neg ?_)
      rw [beq_iff_eq, Prod.mk.injEq]
      exact fun equal => same equal.2
  | advised =>
    rw [View.launch, View.count, empty, List.nil_append, List.count_singleton]
    refine Or.inl (if_neg ?_)
    rw [beq_iff_eq, Prod.mk.injEq]
    exact fun equal => by cases equal.1

theorem Recovered.launched_llm {key : UUID × StepId} {retriable : Prop}
    {before after : View} (empty : before.launched = [])
    (recovered : Recovered config key retriable before after)
    (within : before.attempts (flowId, sid) ≤ config.policy.maxLlmAttempts.toNat) :
    after.launched.count (.llm, flowId, sid) + before.attempts (flowId, sid) ≤
        after.attempts (flowId, sid) ∧
      after.attempts (flowId, sid) ≤ config.policy.maxLlmAttempts.toNat := by
  have counted : (before.attempts key : Int) < config.policy.maxLlmAttempts ->
      before.attempts (flowId, sid) ≤ (before.count key).attempts (flowId, sid) ∧
        (before.count key).attempts (flowId, sid) ≤ config.policy.maxLlmAttempts.toNat := by
    intro below
    by_cases same : (flowId, sid) = key
    · subst same
      rw [View.count_attempts_same]
      omega
    · rw [View.count_attempts_other before same]
      exact ⟨Nat.le_refl _, within⟩
  cases recovered with
  | settled =>
    rw [empty, List.count_nil, Nat.zero_add]
    exact ⟨Nat.le_refl _, within⟩
  | retried =>
    rw [View.launch, empty, List.nil_append, List.count_singleton, if_neg, Nat.zero_add]
    · exact ⟨Nat.le_refl _, within⟩
    · rw [beq_iff_eq, Prod.mk.injEq]
      exact fun equal => by cases equal.1
  | consulted below =>
    rw [View.count, empty, List.count_nil, Nat.zero_add]
    exact counted below
  | advised below =>
    rw [View.launch, show (before.count key).launched = [] from empty, List.nil_append,
      List.count_singleton]
    change _ ≤ (before.count key).attempts (flowId, sid) ∧
      (before.count key).attempts (flowId, sid) ≤ _
    by_cases same : (flowId, sid) = key
    · subst same
      rw [if_pos (beq_self_eq_true _), View.count_attempts_same]
      omega
    · rw [if_neg, Nat.zero_add]
      · exact counted below
      · rw [beq_iff_eq, Prod.mk.injEq]
        exact fun equal => same equal.2.symm

theorem recoverySession_view (config : RecoveryConfig) (world : Surroundings)
    (controller : RecoveryController) (event : FlowEvent) :
    (recoverySession config world controller event).view =
        { attempts := controller.llmAttempts, launched := [], reported := false } ∨
      (event.eventType = .stepFailed ∧ ∃ sid, event.payload.stepId = some sid ∧
        Recovered config (event.flowId, sid) (Retriable config event)
          { attempts := controller.llmAttempts, launched := [], reported := false }
          (recoverySession config world controller event).view) :=
  recoverHandle_view config world event { controller }

theorem handledEntries_cases (config : RecoveryConfig) (loop : RetryLoop) (input : LoopInput) :
    (handledEntries config loop input = [] ∧
        (loop.step config input).controller = loop.controller) ∨ ∃ index world event,
        input = .handle index world ∧ loop.bus[index]? = some event ∧
        handledEntries config loop input = .received event ::
          (recoverySession config world loop.controller event).made.map .made ∧
        (loop.step config input).controller =
          (recoverySession config world loop.controller event).controller := by
  cases input with
  | publish event =>
    refine Or.inl ⟨rfl, ?_⟩
    simp only [RetryLoop.step]
    split <;> rfl
  | launch flow step tool args refused => cases refused <;> exact Or.inl ⟨rfl, rfl⟩
  | execute index outcome publishes =>
    refine Or.inl ⟨rfl, ?_⟩
    simp only [RetryLoop.step]
    split <;> rfl
  | handle index world =>
    cases taken : loop.bus[index]? with
    | none =>
      refine Or.inl ⟨?_, ?_⟩
      · simp only [handledEntries, taken]
      · simp only [RetryLoop.step, taken]
    | some event =>
      refine Or.inr ⟨index, world, event, rfl, taken, ?_, ?_⟩
      · simp only [handledEntries, taken]
      · simp only [RetryLoop.step, taken]

theorem llm_counted (config : RecoveryConfig) (inputs : List LoopInput) :
    (recoveryHistory config inputs).countP (HistoryEntry.relaunches flowId sid .llm) ≤
        ((loopMachine config).after inputs).controller.llmAttempts (flowId, sid) ∧
      ((loopMachine config).after inputs).controller.llmAttempts (flowId, sid) ≤
        config.policy.maxLlmAttempts.toNat := by
  induction inputs using List.reverseRecOn with
  | nil => exact ⟨Nat.le_refl 0, Nat.zero_le _⟩
  | append_singleton earlier input ih =>
    unfold recoveryHistory at ih ⊢
    rw [Machine.outputs_append_singleton, List.countP_append, Machine.after_append_singleton]
    generalize (loopMachine config).after earlier = loop at ih
    change _ ≤ (loop.step config input).controller.llmAttempts (flowId, sid) ∧
      (loop.step config input).controller.llmAttempts (flowId, sid) ≤ _
    rcases handledEntries_cases config loop input with ⟨nothing, controller⟩ |
      ⟨_, world, event, _, _, entries, controller⟩
    · rw [nothing, controller, List.countP_nil, Nat.add_zero]
      exact ih
    · rw [entries, controller, List.countP_cons_of_neg (by intro impossible; cases impossible),
        countP_relaunches]
      have counted : ((recoverySession config world loop.controller event).made.filterMap
            MadeCall.relaunch).count (.llm, flowId, sid) +
            loop.controller.llmAttempts (flowId, sid) ≤
            (recoverySession config world loop.controller event).controller.llmAttempts
              (flowId, sid) ∧
          (recoverySession config world loop.controller event).controller.llmAttempts
              (flowId, sid) ≤ config.policy.maxLlmAttempts.toNat := by
        rcases recoverySession_view config world loop.controller event with unchanged |
          ⟨_, step, _, recovered⟩
        · have attempts := congrArg View.attempts unchanged
          have launched := congrArg View.launched unchanged
          simp only [Session.view] at attempts launched
          rw [attempts, launched, List.count_nil, Nat.zero_add]
          exact ⟨Nat.le_refl _, ih.2⟩
        · exact recovered.launched_llm rfl ih.2
      refine ⟨?_, counted.2⟩
      refine Nat.le_trans (Nat.add_le_add_right ih.1 _) ?_
      rw [Nat.add_comm]
      exact counted.1

theorem relaunchCount_llm_le (config : RecoveryConfig) (inputs : List LoopInput) :
    relaunchCount flowId sid .llm (recoveryHistory config inputs) ≤
      config.policy.maxLlmAttempts.toNat :=
  Nat.le_trans (List.Sublist.countP_le (List.takeWhile_sublist _))
    (Nat.le_trans (llm_counted config inputs).1 (llm_counted config inputs).2)

variable (flowId sid) in
theorem ruleRetries_of_event (config : RecoveryConfig) (world : Surroundings)
    (controller : RecoveryController) (event : FlowEvent)
    (first : event.eventType = .stepFailed -> event.payload.attempt = some (.ok 1)) :
    ((recoverySession config world controller event).made.filterMap
        MadeCall.relaunch).count (.rule, flowId, sid) = 0 ∨
      (((recoverySession config world controller event).made.filterMap
          MadeCall.relaunch).count (.rule, flowId, sid) = 1 ∧
        HistoryEntry.failsTransiently flowId sid (.received event) = true ∧
        1 < config.policy.maxAttempts) := by
  rcases recoverySession_view config world controller event with unchanged |
    ⟨kind, step, named, recovered⟩
  · have launched := congrArg View.launched unchanged
    simp only [Session.view] at launched
    rw [launched]
    exact Or.inl rfl
  · rcases recovered.launched_rule flowId sid rfl with none_ |
      ⟨once, same, transient, attempt, read, below⟩
    · exact Or.inl none_
    · refine Or.inr ⟨once, ?_, ?_⟩
      · cases same
        simp only [HistoryEntry.failsTransiently, kind, named, transient, and_self, decide_true,
          Bool.and_self]
      · rw [attemptOf, first kind] at read
        cases read
        exact below

variable (flowId sid) in
theorem event_counted (config : RecoveryConfig) (world : Surroundings)
    (controller : RecoveryController) (event : FlowEvent)
    (first : event.eventType = .stepFailed -> event.payload.attempt = some (.ok 1)) :
    ((HistoryEntry.received event ::
        (recoverySession config world controller event).made.map .made).takeWhile
          (fun entry => !entry.escalates flowId sid)).countP
            (HistoryEntry.relaunches flowId sid .rule) ≤ ((HistoryEntry.received event ::
        (recoverySession config world controller event).made.map .made).takeWhile
          (fun entry => !entry.escalates flowId sid)).countP
            (HistoryEntry.failsTransiently flowId sid) ∧ (config.policy.maxAttempts ≤ 1 ->
      ((HistoryEntry.received event ::
        (recoverySession config world controller event).made.map .made).takeWhile
          (fun entry => !entry.escalates flowId sid)).countP
            (HistoryEntry.relaunches flowId sid .rule) = 0) := by
  generalize made : (recoverySession config world controller event).made = calls
  have once := ruleRetries_of_event flowId sid config world controller event first
  rw [made, ← countP_relaunches] at once
  have fewer : ((calls.map HistoryEntry.made).takeWhile
      (fun entry => !entry.escalates flowId sid)).countP (HistoryEntry.relaunches flowId sid .rule) ≤
      (calls.map HistoryEntry.made).countP (HistoryEntry.relaunches flowId sid .rule) :=
    List.Sublist.countP_le (List.takeWhile_sublist _)
  rw [List.takeWhile_cons_of_pos rfl, List.countP_cons_of_neg (by intro impossible; cases impossible),
    List.countP_cons]
  rcases once with none_ | ⟨one, transient, below⟩
  · rw [none_] at fewer
    rw [Nat.le_zero.mp fewer]
    exact ⟨Nat.zero_le _, fun _ => rfl⟩
  · rw [if_pos transient]
    exact ⟨by omega, fun none_ => by omega⟩

/-- Rule retries before the first escalation are answers to transient failures
handled before it, and there are none unless the policy allows two attempts. -/
theorem rule_counted (config : RecoveryConfig) (inputs : List LoopInput) :
    relaunchCount flowId sid .rule (recoveryHistory config inputs) ≤
        transientFailures flowId sid (recoveryHistory config inputs) ∧
      (config.policy.maxAttempts ≤ 1 ->
        relaunchCount flowId sid .rule (recoveryHistory config inputs) = 0) := by
  induction inputs using List.reverseRecOn with
  | nil => exact ⟨Nat.le_refl 0, fun _ => rfl⟩
  | append_singleton earlier input ih =>
    have first := firstAttempts_after config earlier
    unfold relaunchCount transientFailures beforeEscalation recoveryHistory at ih ⊢
    rw [Machine.outputs_append_singleton, countP_takeWhile_append, countP_takeWhile_append]
    generalize (loopMachine config).after earlier = loop at first
    rcases handledEntries_cases config loop input with ⟨nothing, _⟩ |
      ⟨_, world, event, _, taken, entries, _⟩
    · rw [nothing]
      simp only [List.takeWhile_nil, List.countP_nil, ite_self, Nat.add_zero]
      exact ih
    · rw [entries]
      split
      · have step := event_counted flowId sid config world loop.controller event
          (first event (List.mem_of_getElem? taken))
        exact ⟨Nat.add_le_add ih.1 step.1, fun none_ => by rw [ih.2 none_, step.2 none_]⟩
      · exact ih

/-! ## When the condition is also necessary -/

variable (flowId sid) in
/-- A failure of the step is handled with its definition at hand and with no
call raising. -/
def RetriesGoThrough (loop : RetryLoop) : LoopInput -> Prop
  | .handle index world => ∀ event, loop.bus[index]? = some event ->
      HistoryEntry.failsTransiently flowId sid (.received event) = true ->
        (loop.controller.stepCache (flowId, sid)).isSome ∧
          ∀ made call, world.raises made call = none
  | _ => True

variable {world : Surroundings}

theorem perform_quietly
    (succeeds : ∀ made call, world.raises made call = none) (call : RecoveryCall)
    (session : Session) : (perform world call).run.run session =
      (.ok ⟨⟩, { session with made := session.made ++ [⟨call, none⟩] }) := by
  rw [perform_run, succeeds]

theorem ruleRetry_quietly (config : RecoveryConfig)
    (succeeds : ∀ made call, world.raises made call = none) {controller : RecoveryController}
    (error : String) {step : StepDict} (known : controller.stepCache (flowId, sid) = some step) :
    ∃ attempted queued : FlowEvent, ∃ tool args,
      attempted.eventType = .recoveryAttempted ∧ queued.eventType = .stepQueued ∧
      (ruleRetry config world flowId sid error 1).run.run { controller } =
        (.ok ⟨⟩, { controller
                   made := [⟨.publish attempted, none⟩, ⟨.publish queued, none⟩,
                     ⟨.redispatch .rule flowId sid tool args, none⟩] }) := by
  have delayed := config.policy.delay_one
  generalize min _ config.policy.maxDelay = delay at delayed
  refine ⟨recoveryEvent flowId .recoveryAttempted
      { stepId := some sid, strategy := some "rule_retry", attempt := some (.ok (1 + 1))
        delay := some delay },
    recoveryEvent flowId .stepQueued { stepId := some sid, attempt := some (.ok (1 + 1)) },
    step.tool.getD .null, (step.args.getD (.obj [])).orEmpty, rfl, rfl, ?_⟩
  unfold ruleRetry requeueStep
  rw [delayed]
  simp only [Program.ofExcept, pure_bind]
  rw [Program.run_bind_ok (perform_quietly succeeds _ _), Program.run_bind_ok (Program.run_get _)]
  dsimp only
  rw [known]
  dsimp only
  rw [Program.run_bind_ok (perform_quietly succeeds _ _),
    Program.run_tryCatch_ok (perform_quietly succeeds _ _)]
  rfl

theorem recoverySession_quietly
    (succeeds : ∀ made call, world.raises made call = none) {controller : RecoveryController}
    {event : FlowEvent} (fails : HistoryEntry.failsTransiently flowId sid (.received event) = true)
    (first : event.eventType = .stepFailed -> event.payload.attempt = some (.ok 1))
    (several : 1 < config.policy.maxAttempts)
    (known : (controller.stepCache (flowId, sid)).isSome) :
    ((recoverySession config world controller event).made.map HistoryEntry.made).all
        (fun entry => !entry.escalates flowId sid) = true ∧
      ((recoverySession config world controller event).made.filterMap
        MadeCall.relaunch).count (.rule, flowId, sid) = 1 := by
  rcases Bool.and_eq_true_iff.mp fails with ⟨concerns, transient⟩
  rcases of_decide_eq_true concerns with ⟨kind, same, named⟩
  rcases Option.isSome_iff_exists.mp known with ⟨step, cached⟩
  rcases ruleRetry_quietly config succeeds (event.payload.error.getD "") cached with
    ⟨attempted, queued, tool, args, attemptedKind, queuedKind, ran⟩
  have session : (recoverySession config world controller event).made =
      [⟨.publish attempted, none⟩, ⟨.publish queued, none⟩,
        ⟨.redispatch .rule flowId sid tool args, none⟩] := by
    unfold recoverySession recoverHandle
    rw [kind]
    dsimp only
    unfold tryRecover
    rw [named, attemptOf, first kind]
    simp only [Program.ofExcept, pure_bind, transient, Bool.not_true, Bool.false_eq_true, if_false,
      Int.not_le.mpr several, same, ran]
  rw [session]
  have notEscalated : ∀ event : FlowEvent, event.eventType ≠ .escalationRaised ->
      HistoryEntry.escalates flowId sid (.made ⟨.publish event, none⟩) = false :=
    fun event different => decide_eq_false (fun escalated => different escalated.1)
  constructor
  · simp only [List.map_cons, List.map_nil, List.all_cons, List.all_nil, Bool.and_true,
      notEscalated attempted (by rw [attemptedKind]; decide),
      notEscalated queued (by rw [queuedKind]; decide), Bool.not_false]
    rfl
  · simp only [List.filterMap_cons, List.filterMap_nil, MadeCall.relaunch,
      List.count_singleton_self]

theorem rule_counted_exactly (config : RecoveryConfig) (several : 1 < config.policy.maxAttempts)
    (inputs : List LoopInput)
    (through : (loopMachine config).EveryStep (RetriesGoThrough flowId sid) inputs) :
    relaunchCount flowId sid .rule (recoveryHistory config inputs) =
      transientFailures flowId sid (recoveryHistory config inputs) := by
  induction inputs using List.reverseRecOn with
  | nil => rfl
  | append_singleton earlier input ih =>
    rcases ((loopMachine config).everyStep_append_singleton _ _ _).mp through with ⟨before, last⟩
    have equal := ih before
    have first := firstAttempts_after config earlier
    unfold relaunchCount transientFailures beforeEscalation recoveryHistory at equal ⊢
    rw [Machine.outputs_append_singleton, countP_takeWhile_append, countP_takeWhile_append, equal]
    generalize (loopMachine config).after earlier = loop at first last
    rcases handledEntries_cases config loop input with ⟨nothing, _⟩ |
      ⟨index, world, event, handled, taken, entries, _⟩
    · rw [nothing]
      rfl
    · rw [entries, List.takeWhile_cons_of_pos rfl, List.countP_cons_of_neg
        (by intro impossible; cases impossible), List.countP_cons]
      have attempt := first event (List.mem_of_getElem? taken)
      have quiet : (((recoverySession config world loop.controller event).made.map
          HistoryEntry.made).takeWhile (fun entry => !entry.escalates flowId sid)).countP
            (HistoryEntry.failsTransiently flowId sid) = 0 := by
        refine List.countP_eq_zero.mpr fun entry member => ?_
        rcases List.mem_map.mp (List.Sublist.mem member (List.takeWhile_sublist _)) with ⟨call, _, made⟩
        rw [← made]
        exact Bool.false_ne_true
      rw [quiet, Nat.zero_add]
      congr 2
      by_cases fails : HistoryEntry.failsTransiently flowId sid (.received event) = true
      · subst handled
        rcases last event taken fails with ⟨known, succeeds⟩
        have ⟨open_, once⟩ := recoverySession_quietly succeeds fails attempt several known
        rw [if_pos fails, List.takeWhile_eq_self_iff.mpr (List.all_eq_true.mp open_),
          countP_relaunches, once]
      · rw [if_neg fails]
        rcases ruleRetries_of_event flowId sid config world loop.controller event attempt with
          none_ | ⟨_, impossible, _⟩
        · refine Nat.le_zero.mp (Nat.le_trans
            (List.Sublist.countP_le (List.takeWhile_sublist _)) ?_)
          rw [countP_relaunches, none_]
        · exact False.elim (fails impossible)

end Step

/-- The language model layer keeps to its bound, and rule retries keep to theirs if
the policy allows one attempt only or at most that many transient failures come before
the escalation. When the retries go through, the condition is also necessary. -/
theorem retry_budget_run (config : RecoveryConfig) (inputs : List LoopInput) (flowId : UUID)
    (sid : StepId) : relaunchCount flowId sid .llm (recoveryHistory config inputs) ≤
        config.policy.maxLlmAttempts.toNat ∧ (config.policy.maxAttempts ≤ 1 ∨
          transientFailures flowId sid (recoveryHistory config inputs) ≤
            (config.policy.maxAttempts - 1).toNat ->
        RetriesBounded flowId sid config.policy (recoveryHistory config inputs)) ∧
      ((loopMachine config).EveryStep (RetriesGoThrough flowId sid) inputs ->
        RetriesBounded flowId sid config.policy (recoveryHistory config inputs) ->
          config.policy.maxAttempts ≤ 1 ∨
            transientFailures flowId sid (recoveryHistory config inputs) ≤
              (config.policy.maxAttempts - 1).toNat) := by
  have consulted : relaunchCount flowId sid .llm (recoveryHistory config inputs) ≤
      config.policy.maxLlmAttempts.toNat := relaunchCount_llm_le config inputs
  refine ⟨consulted, ?_, ?_⟩
  · rintro (single | few)
    · refine ⟨?_, consulted⟩
      rw [(rule_counted config inputs).2 single]
      exact Nat.zero_le _
    · exact ⟨Nat.le_trans (rule_counted config inputs).1 few, consulted⟩
  · intro through bounded
    by_cases several : 1 < config.policy.maxAttempts
    · refine Or.inr ?_
      rw [← rule_counted_exactly config several inputs through]
      exact bounded.1
    · exact Or.inl (Int.not_lt.mp several)

def fetchProposal : FlowEvent :=
  { flowId := 1, eventType := .dagProposed, actor := .agent
    payload := { steps := some [{ id := some "fetch", title := some "fetch", tool := some (.str "web") }] } }

/-- The worker executes one task, whose tool cannot connect. -/
def connectionFails (task : Nat) : LoopInput :=
  .execute task (.raised "ConnectionError" "refused") (fun _ => true)

def firstFailure : List LoopInput :=
  [.publish fetchProposal, .handle 0 {}, .launch 1 "fetch" (.str "web") (.obj []) none,
    connectionFails 0, .handle 2 {}]

theorem retries_bounded_once : RetriesBounded 1 "fetch" {} (recoveryHistory {} firstFailure) :=
  (retry_budget_run {} firstFailure 1 "fetch").2.1 (Or.inr (by decide +kernel))

/-- The third failure is still the first attempt, so the third retry follows. -/
theorem third_retry : ¬ ∀ config inputs flowId sid,
    RetriesBounded flowId sid config.policy (recoveryHistory config inputs) := by
  intro claimed
  have bounded := (claimed {} (firstFailure ++ [connectionFails 1, .handle 6 {}, connectionFails 2,
    .handle 10 {}]) 1 "fetch").1
  exact absurd bounded (by decide +kernel)

end Flow
end BreadMind
