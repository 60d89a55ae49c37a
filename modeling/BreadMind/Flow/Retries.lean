import BreadMind.Flow.Projection
import BreadMind.Flow.RetryBudget

namespace BreadMind
namespace Flow

open Execution

/-!
# What a retry dispatches

The controller retries a step with the definition in its own cache.  The cache
is filled from the entries of proposals and changed by the language model, while
the engine's DAG also changes through mutations, which the controller does not
listen to.

The engine and the controller below handle the same events in the same order.
Next to them stands what the controller's last language model recovery of each
step has set.
-/

structure Retrying where
  engine : FlowEngine := { states := fun _ => none }
  controller : RecoveryController := {}
  /-- The definitions that language model recoveries have set. -/
  advised : UUID × StepId -> Option StepDict := fun _ => none

structure Handled where
  world : World := {}
  surroundings : Surroundings := {}
  event : FlowEvent

/-- The announcement of a recovery that sets a definition of the step. -/
def RecoveryCall.revises (key : UUID × StepId) : RecoveryCall -> Bool
  | .publish event =>
    decide (event.eventType = .recoveryAttempted ∧ event.flowId = key.1 ∧
      event.payload.stepId = some key.2 ∧
      (event.payload.strategy = some "llm_retry_with_modified_args" ∨
        event.payload.strategy = some "llm_replace_step_with_alternative"))
  | .redispatch .. => false

def Retrying.session (config : RecoveryConfig) (state : Retrying) (input : Handled) : Session :=
  recoverySession config input.surroundings state.controller input.event

def Retrying.step (config : RecoveryConfig) (state : Retrying) (input : Handled) : Retrying :=
  let session := state.session config input
  { engine := state.engine.handle input.world input.event
    controller := session.controller
    advised := fun key =>
      if session.made.any (fun made => made.call.revises key) then session.controller.stepCache key
      else state.advised key }

def retryingMachine (config : RecoveryConfig) : Machine Retrying Handled where
  initial := {}
  step := Retrying.step config

def FlowEngine.steps (engine : FlowEngine) (flowId : UUID) : List Step :=
  ((engine.state flowId).dag.map fun valid => valid.dag.steps).getD []

def StepDict.dispatches (entry : StepDict) (tool args : Json) : Prop :=
  tool = entry.tool.getD .null ∧ args = (entry.args.getD (.obj [])).orEmpty

/-- The controller gives a step up because it knows no definition of it. -/
def RecoveryCall.forgets (key : UUID × StepId) : RecoveryCall -> Bool
  | .publish event =>
    decide (event.eventType = .escalationRaised ∧ event.flowId = key.1 ∧
      event.payload.stepId = some key.2 ∧
      event.payload.reason = some "step definition unavailable")
  | .redispatch .. => false

/-- A step retried by rule is dispatched as the DAG in force has it, or as the
controller's last language model recovery has set it, and no step in force is
given up for want of a definition. -/
def RetriesInForce (config : RecoveryConfig) (state : Retrying) (input : Handled) : Prop :=
  ∀ made ∈ (state.session config input).made, ∀ flowId sid,
    (∀ tool args, made.call = .redispatch .rule flowId sid tool args ->
      (∃ s ∈ state.engine.steps flowId, s.id = sid ∧ tool = s.tool ∧ args = s.args) ∨
        ∃ entry, state.advised (flowId, sid) = some entry ∧ entry.dispatches tool args) ∧
    (made.call.forgets (flowId, sid) -> sid ∉ (state.engine.steps flowId).map Step.id)

/-- The controller is told of every definition it may have to use.  A proposal
that is in force afterwards has proper arguments, and one that is refused says
nothing else of the steps in force; what a mutation changes is in the cache
already; and a failure that is retried is one of a step in force. -/
def Informed (config : RecoveryConfig) (state : Retrying) (input : Handled) : Prop :=
  match input.event.eventType with
  | .dagProposed =>
    ∀ s ∈ (state.step config input).engine.steps input.event.flowId,
      ∀ entry ∈ input.event.payload.steps.getD [], entry.id = some s.id ->
        entry.dispatches s.tool s.args
  | .dagMutated =>
    ∀ s ∈ (state.step config input).engine.steps input.event.flowId,
      s ∈ state.engine.steps input.event.flowId ∨ ∃ entry,
        state.controller.stepCache (input.event.flowId, s.id) = some entry ∧
          (entry.dispatches s.tool s.args ∨ state.advised (input.event.flowId, s.id) = some entry)
  | .stepFailed =>
    Retriable config input.event -> ∀ sid, input.event.payload.stepId = some sid ->
      sid ∈ (state.engine.steps input.event.flowId).map Step.id ∨
        state.controller.stepCache (input.event.flowId, sid) = none ∨
          state.controller.stepCache (input.event.flowId, sid) =
            state.advised (input.event.flowId, sid)
  | _ => True

/-! ## What the controller does with a failure -/

/-- The call is no retry and no giving up, or it follows the cache. -/
structure Faithful (event : FlowEvent) (retriable : Prop)
    (cache : UUID × StepId -> Option StepDict) (call : RecoveryCall) : Prop where
  retries : ∀ flowId sid tool args, call = .redispatch .rule flowId sid tool args ->
    retriable ∧ flowId = event.flowId ∧ event.payload.stepId = some sid ∧
      ∃ entry, cache (flowId, sid) = some entry ∧ entry.dispatches tool args
  forgets : ∀ key, call.forgets key -> cache key = none

/-- All calls so far are faithful, and only a revision has changed the cache. -/
structure Remembers (event : FlowEvent) (retriable : Prop)
    (cache : UUID × StepId -> Option StepDict) (session : Session) : Prop where
  faithful : ∀ made ∈ session.made, Faithful event retriable cache made.call
  revised : ∀ key, session.controller.stepCache key ≠ cache key ->
    (session.controller.stepCache key).isSome ∧
      session.made.any (fun made => made.call.revises key)

section Failures

variable {event : FlowEvent} {retriable : Prop} {cache : UUID × StepId -> Option StepDict}
  {call : RecoveryCall} {world : Surroundings}

theorem perform_keeps {invariant : Session -> Prop}
    (closed : ∀ (session : Session) raised, invariant session ->
      invariant { session with made := session.made ++ [⟨call, raised⟩] }) :
    Program.Keeps invariant (perform world call) := by
  intro session holds
  rw [perform_run]
  cases world.raises session.made call <;> exact closed session _ holds

theorem Remembers.perform (faithful : Faithful event retriable cache call) :
    Program.Keeps (Remembers event retriable cache) (perform world call) := by
  refine perform_keeps fun session raised holds => ⟨?_, fun key changed => ?_⟩
  · intro made member
    rcases List.mem_append.mp member with earlier | last
    · exact holds.faithful made earlier
    · exact List.mem_singleton.mp last ▸ faithful
  · rcases holds.revised key changed with ⟨present, announced⟩
    refine ⟨present, ?_⟩
    rw [List.any_append, announced, Bool.true_or]

theorem faithful_publish {sent : FlowEvent} (other : sent.eventType ≠ .escalationRaised) :
    Faithful event retriable cache (.publish sent) where
  retries := fun _ _ _ _ impossible => RecoveryCall.noConfusion impossible
  forgets := fun _ forgets => (other (of_decide_eq_true forgets).1).elim

variable (flowId : UUID) (sid : StepId)

theorem faithful_redispatch (tool args : Json) :
    Faithful event retriable cache (.redispatch .llm flowId sid tool args) where
  retries := by
    rintro _ _ _ _ ⟨⟩
  forgets := by
    rintro _ ⟨⟩

theorem escalate_keeps {reason error : String} (known : reason ≠ "step definition unavailable") :
    Program.Keeps (Remembers event retriable cache) (escalate world flowId sid reason error) := by
  refine Remembers.perform ⟨fun _ _ _ _ impossible => RecoveryCall.noConfusion impossible, ?_⟩
  exact fun _ forgets => (known (Option.some.inj (of_decide_eq_true forgets).2.2.2)).elim

theorem publishRecoveryAttempt_keeps (strategy : String) (context : Json) :
    Program.Keeps (Remembers event retriable cache)
      (publishRecoveryAttempt world flowId sid strategy context) :=
  Remembers.perform (faithful_publish (by intro same; cases same))

theorem requeueStep_keeps (attempt : Int) :
    Program.Keeps (Remembers event retriable cache) (requeueStep world flowId sid attempt) :=
  Remembers.perform (faithful_publish (by intro same; cases same))

variable (step : StepDict)

theorem relaunch_keeps (attempt : Int) {strategy : String} (tool args context : Json)
    (revision : strategy = "llm_retry_with_modified_args" ∨
      strategy = "llm_replace_step_with_alternative") :
    Program.Keeps (Remembers event retriable cache)
      (relaunch world flowId sid step attempt strategy tool args context) := by
  unfold relaunch
  refine Program.ensures_bind (fun _ session =>
    (∀ made ∈ session.made, Faithful event retriable cache made.call) ∧
      ∀ key, session.controller.stepCache key ≠ cache key ->
        (session.controller.stepCache key).isSome ∧ (key = (flowId, sid) ∨
          session.made.any (fun made => made.call.revises key))) ?_ fun _ => ?_
  · refine Program.ensures_modify fun session holds => ⟨holds.faithful, fun key changed => ?_⟩
    by_cases here : key = (flowId, sid)
    · subst here
      exact ⟨by simp only [Function.update_self, Option.isSome_some], .inl rfl⟩
    · simp only [Function.update_of_ne here] at changed ⊢
      exact ⟨(holds.revised key changed).1, .inr (holds.revised key changed).2⟩
  · refine Program.ensures_bind (fun _ => Remembers event retriable cache) ?_ fun _ => ?_
    · have announces : (RecoveryCall.publish (recoveryEvent flowId .recoveryAttempted
          { stepId := some sid, strategy := some strategy, context := some context })).revises
            (flowId, sid) = true :=
        decide_eq_true ⟨rfl, rfl, rfl, revision.imp (congrArg some) (congrArg some)⟩
      have finishes : ∀ (session : Session) raised,
          ((∀ made ∈ session.made, Faithful event retriable cache made.call) ∧
            ∀ key, session.controller.stepCache key ≠ cache key ->
              (session.controller.stepCache key).isSome ∧ (key = (flowId, sid) ∨
                session.made.any (fun made => made.call.revises key))) ->
          Remembers event retriable cache { session with made := session.made ++
            [⟨.publish (recoveryEvent flowId .recoveryAttempted
              { stepId := some sid, strategy := some strategy, context := some context }),
                raised⟩] } := by
        rintro session raised ⟨faithful, revised⟩
        refine ⟨fun made member => ?_, fun key changed => ⟨(revised key changed).1, ?_⟩⟩
        · rcases List.mem_append.mp member with earlier | last
          · exact faithful made earlier
          · rw [List.mem_singleton.mp last]
            exact faithful_publish (by intro same; cases same)
        · rw [List.any_append, Bool.or_eq_true]
          rcases (revised key changed).2 with rfl | earlier
          · exact .inr (by rw [List.any_cons, announces, Bool.true_or])
          · exact .inl earlier
      intro session holds
      unfold publishRecoveryAttempt
      rw [perform_run]
      cases world.raises session.made _ <;> exact finishes session _ holds
    · exact Program.keeps_bind (requeueStep_keeps _ _ _) fun _ =>
        Remembers.perform (faithful_redispatch _ _ _ _)

theorem applyStrategy_keeps (error : String)
    (attempt : Int) (plan reasoning : Json) (strategy : Strategy) :
    Program.Keeps (Remembers event retriable cache)
      (applyStrategy world flowId sid step error attempt plan reasoning strategy) := by
  cases strategy with
  | retryWithModifiedArgs =>
    refine Program.keeps_bind (Program.keeps_ofExcept _) fun given => ?_
    dsimp only
    split
    · exact relaunch_keeps _ _ _ _ _ _ _ (.inl rfl)
    · exact Program.keeps_throw _
  | replaceStepWithAlternative =>
    refine Program.keeps_bind (Program.keeps_ofExcept _) fun tool => ?_
    refine Program.keeps_bind (Program.keeps_ofExcept _) fun args => ?_
    dsimp only
    split
    · exact relaunch_keeps _ _ _ _ _ _ _ (.inr rfl)
    · exact Program.keeps_throw _
  | skipAndContinue =>
    refine Program.keeps_bind (publishRecoveryAttempt_keeps _ _ _ _) fun _ => ?_
    exact Remembers.perform (faithful_publish (by intro same; cases same))
  | escalate =>
    refine Program.keeps_bind (publishRecoveryAttempt_keeps _ _ _ _) fun _ => ?_
    refine escalate_keeps _ _ fun same => ?_
    have first := congrArg (fun text : String => text.toList.head?) same
    split at first
    · rw [String.toList_append, List.head?_append_of_ne_nil _ (by decide)] at first
      exact absurd first (by decide)
    · exact absurd first (by decide)

theorem llmRecover_keeps (error : String) (attempt : Int) :
    Program.Keeps (Remembers event retriable cache)
      (llmRecover world flowId sid step error attempt) := by
  refine Program.keeps_bind (Program.keeps_ofExcept _) fun content => ?_
  rcases content with _ | parsed
  · exact Program.keeps_throw _
  · cases parsed with
    | error message => exact Program.keeps_throw _
    | ok plan =>
      refine Program.keeps_bind (Program.keeps_ofExcept _) fun strategy => ?_
      refine Program.keeps_bind (Program.keeps_ofExcept _) fun reasoning => ?_
      dsimp only
      split
      · exact Program.keeps_throw _
      · exact applyStrategy_keeps _ _ _ _ _ _ _ _

theorem maybeLlmRecover_keeps (config : RecoveryConfig) (flowId : UUID) (sid : StepId)
    (error : String) (attempt : Int) : Program.Keeps (Remembers event retriable cache)
      (maybeLlmRecover config world flowId sid error attempt) := by
  refine Program.keeps_bind Program.keeps_get fun session => ?_
  dsimp only
  split
  · exact Program.keeps_pure _
  · split
    · exact Program.keeps_pure _
    · refine Program.keeps_bind (Program.keeps_modify fun _ holds => ?_) fun _ => ?_
      · exact ⟨holds.faithful, holds.revised⟩
      · refine Program.keeps_tryCatch ?_ fun failure => ?_
        · exact Program.keeps_bind (llmRecover_keeps _ _ _ _ _) fun _ => Program.keeps_pure _
        · exact Program.keeps_bind (escalate_keeps _ _ (by decide)) fun _ => Program.keeps_pure _

theorem orEscalate_keeps (config : RecoveryConfig) (flowId : UUID) (sid : StepId)
    (error : String) (attempt : Int) {reason : String}
    (known : reason ≠ "step definition unavailable") :
    Program.Keeps (Remembers event retriable cache)
      (orEscalate config world flowId sid error attempt reason) := by
  refine Program.keeps_bind (maybeLlmRecover_keeps _ _ _ _ _) fun taken => ?_
  cases taken with
  | true => exact Program.keeps_pure _
  | false => exact escalate_keeps _ _ known

def Untouched (event : FlowEvent) (retriable : Prop) (cache : UUID × StepId -> Option StepDict)
    (session : Session) : Prop :=
  session.controller.stepCache = cache ∧
    ∀ made ∈ session.made, Faithful event retriable cache made.call

theorem Untouched.remembers {session : Session}
    (untouched : Untouched event retriable cache session) :
    Remembers event retriable cache session where
  faithful := untouched.2
  revised := fun key changed => (changed (congrFun untouched.1 key)).elim

theorem Untouched.perform (faithful : Faithful event retriable cache call) :
    Program.Keeps (Untouched event retriable cache) (perform world call) := by
  refine perform_keeps fun session raised holds => ⟨holds.1, fun made member => ?_⟩
  rcases List.mem_append.mp member with earlier | last
  · exact holds.2 made earlier
  · exact List.mem_singleton.mp last ▸ faithful

theorem ruleRetry_keeps (config : RecoveryConfig) {sid : StepId}
    (named : event.payload.stepId = some sid) (error : String) (attempt : Int)
    (allowed : retriable) : Program.Keeps (Untouched event retriable cache)
      (ruleRetry config world event.flowId sid error attempt) := by
  refine Program.keeps_bind (Program.keeps_ofExcept _) fun delay => ?_
  refine Program.keeps_bind (Untouched.perform (faithful_publish (by intro same; cases same)))
    fun _ => ?_
  refine Program.keeps_get_bind fun session holds => ?_
  rw [holds.1]
  cases cached : cache (event.flowId, sid) with
  | none =>
    refine Untouched.perform ⟨fun _ _ _ _ impossible => RecoveryCall.noConfusion impossible, ?_⟩
    rintro ⟨flow, other⟩ forgets
    rcases of_decide_eq_true forgets with ⟨_, same, sameStep, _⟩
    have here : (event.flowId, sid) = (flow, other) :=
      Prod.ext same (Option.some.inj sameStep)
    exact here ▸ cached
  | some step =>
    refine Program.keeps_bind (Untouched.perform (faithful_publish (by intro same; cases same)))
      fun _ => ?_
    refine Program.keeps_tryCatch (Untouched.perform ⟨?_, ?_⟩) fun failure => Untouched.perform ⟨?_, ?_⟩
    · rintro _ _ _ _ ⟨⟩
      exact ⟨allowed, rfl, named, step, cached, rfl, rfl⟩
    · rintro _ ⟨⟩
    · rintro _ _ _ _ ⟨⟩
    · intro key forgets
      exact absurd (Option.some.inj (of_decide_eq_true forgets).2.2.2) (by decide)

theorem tryRecover_remembers (config : RecoveryConfig) :
    Program.Reaches (Untouched event (Retriable config event) cache)
      (Remembers event (Retriable config event) cache) (tryRecover config world event) := by
  have refused : ∀ failure : PyError, Program.Reaches (Untouched event (Retriable config event) cache)
      (Remembers event (Retriable config event) cache) (throw failure : Recovering PUnit) :=
    fun failure => Program.ensures_throw fun _ => Untouched.remembers
  have escalates : ∀ (sid : StepId) (error : String) (attempt : Int) (reason : String),
      reason ≠ "step definition unavailable" ->
      Program.Reaches (Untouched event (Retriable config event) cache)
        (Remembers event (Retriable config event) cache)
        (orEscalate config world event.flowId sid error attempt reason) :=
    fun _ _ _ _ known => Program.Ensures.start (orEscalate_keeps config _ _ _ _ known)
      fun _ => Untouched.remembers
  unfold tryRecover
  cases named : event.payload.stepId with
  | none => exact refused _
  | some sid =>
    simp only [Program.ofExcept, pure_bind]
    cases read : attemptOf event with
    | error failure => exact refused _
    | ok attempt =>
      simp only [pure_bind]
      cases transient : isTransientError (event.payload.error.getD "") with
      | false => exact escalates _ _ _ _ (by decide)
      | true =>
        by_cases spent : config.policy.maxAttempts ≤ attempt
        · simp only [spent, if_true, Bool.not_true, Bool.false_eq_true, if_false]
          exact escalates _ _ _ _ (by decide)
        · simp only [spent, Bool.not_true, Bool.false_eq_true, if_false]
          refine Program.Ensures.weaken (ruleRetry_keeps config named _ _
            ⟨transient, attempt, read, Int.not_le.mp spent⟩) (fun _ holds => holds)
            (fun _ _ => Untouched.remembers) (fun _ _ => Untouched.remembers)

end Failures

/-! ## What the controller does with a proposal -/

variable (flowId : UUID)

structure Cached (entries : List StepDict) (before after : Session) : Prop where
  made : after.made = before.made
  cached : ∀ key, (key.1 = flowId ∧ ∃ entry ∈ entries,
      entry.id = some key.2 ∧ after.controller.stepCache key = some entry) ∨
    (after.controller.stepCache key = before.controller.stepCache key ∧
      (key.1 = flowId -> ∀ entry ∈ entries, entry.id ≠ some key.2))

theorem cached_forM (entries : List StepDict) (session : Session) :
    Cached flowId entries session ((forM entries fun step => match step.id with
      | none => pure ⟨⟩
      | some sid => cacheStep (flowId, sid) step : Recovering PUnit).run.run session).2 := by
  induction entries generalizing session with
  | nil => exact ⟨rfl, fun key => .inr ⟨rfl, fun _ => List.forall_mem_nil _⟩⟩
  | cons head rest ih =>
    rw [List.forM_cons]
    cases named : head.id with
    | none =>
      have later := ih session
      refine ⟨later.made, fun key => ?_⟩
      rcases later.cached key with ⟨same, entry, member, rest⟩ | ⟨unchanged, absent⟩
      · exact .inl ⟨same, entry, List.mem_cons_of_mem _ member, rest⟩
      · refine .inr ⟨unchanged, fun same => List.forall_mem_cons.mpr ⟨?_, absent same⟩⟩
        rw [named]
        exact (Option.some_ne_none key.2).symm
    | some sid =>
      have later := ih { session with controller := { session.controller with
        stepCache := Function.update session.controller.stepCache (flowId, sid) (some head) } }
      refine ⟨later.made, fun key => ?_⟩
      rcases later.cached key with ⟨same, entry, member, rest⟩ | ⟨unchanged, absent⟩
      · exact .inl ⟨same, entry, List.mem_cons_of_mem _ member, rest⟩
      · by_cases here : key = (flowId, sid)
        · subst here
          refine .inl ⟨rfl, head, List.mem_cons_self, named, unchanged.trans ?_⟩
          exact Function.update_self _ _ _
        · refine .inr ⟨unchanged.trans (Function.update_of_ne here _ _), fun same => ?_⟩
          refine List.forall_mem_cons.mpr ⟨fun again => here ?_, absent same⟩
          exact Prod.ext same (Option.some.inj (again.symm.trans named))

variable {config : RecoveryConfig} {state : Retrying} {input : Handled}

/-- Nothing is called unless a failure is handled. -/
theorem session_of_other (other : input.event.eventType ≠ .stepFailed) :
    (state.session config input).made = [] := by
  unfold Retrying.session recoverySession recoverHandle
  cases kind : input.event.eventType with
  | dagProposed => exact (cached_forM _ _ _).made
  | stepFailed => exact (other kind).elim
  | _ => rfl

theorem session_cache_of_other (notProposed : input.event.eventType ≠ .dagProposed)
    (notFailed : input.event.eventType ≠ .stepFailed) :
    (state.session config input).controller = state.controller := by
  unfold Retrying.session recoverySession recoverHandle
  cases kind : input.event.eventType with
  | dagProposed => exact (notProposed kind).elim
  | stepFailed => exact (notFailed kind).elim
  | _ => rfl

variable (config state) in
theorem session_of_proposed (proposed : input.event.eventType = .dagProposed) :
    Cached input.event.flowId (input.event.payload.steps.getD []) { controller := state.controller }
      (state.session config input) := by
  unfold Retrying.session recoverySession recoverHandle
  rw [proposed]
  exact cached_forM _ _ _

variable (config state) in
theorem session_of_failed (failed : input.event.eventType = .stepFailed) :
    Remembers input.event (Retriable config input.event) state.controller.stepCache
      (state.session config input) := by
  unfold Retrying.session recoverySession recoverHandle
  rw [failed]
  exact Program.Ensures.after (tryRecover_remembers config) ⟨rfl, List.forall_mem_nil _⟩

theorem steps_after :
    (state.step config input).engine.steps flowId = if flowId = input.event.flowId then
      ((nextDag input.world (state.engine.state flowId) input.event).map
        fun valid => valid.dag.steps).getD []
    else state.engine.steps flowId := by
  unfold FlowEngine.steps Retrying.step
  by_cases same : flowId = input.event.flowId
  · subst same
    rw [if_pos rfl]
    simp only [FlowEngine.state_handle_same, handle_dag]
  · rw [if_neg same]
    simp only [FlowEngine.state_handle_other _ _ _ _ same]

theorem steps_of_other (notProposed : input.event.eventType ≠ .dagProposed)
    (notMutated : input.event.eventType ≠ .dagMutated) (flowId : UUID) :
    (state.step config input).engine.steps flowId = state.engine.steps flowId := by
  rw [steps_after]
  split
  · unfold nextDag
    cases kind : input.event.eventType with
    | dagProposed => exact (notProposed kind).elim
    | dagMutated => exact (notMutated kind).elim
    | _ => rfl
  · rfl

theorem mem_steps_of_proposed (proposed : input.event.eventType = .dagProposed) {s : Step}
    (member : s ∈ (state.step config input).engine.steps input.event.flowId) :
    s ∈ state.engine.steps input.event.flowId ∨
      ∃ entry ∈ input.event.payload.steps.getD [], entry.id = some s.id := by
  rw [steps_after, if_pos rfl] at member
  unfold nextDag at member
  rw [proposed] at member
  cases read : DAG.fromPayload input.world.frames (input.event.payload.steps.getD []) with
  | error failure =>
    rw [read] at member
    exact .inl member
  | ok valid =>
    rw [read] at member
    rcases bind_eq_ok.mp read with ⟨steps, entries, checked⟩
    have listed : s.id ∈ steps.map Step.id := by
      have same : valid.dag.steps = steps := congrArg DAG.steps (DAG.validated_dag checked)
      exact List.mem_map_of_mem (same ▸ (member : s ∈ valid.dag.steps))
    rw [Step.read_ids entries] at listed
    rcases List.mem_filterMap.mp listed with ⟨entry, inEntries, named⟩
    exact .inr ⟨entry, inEntries, named⟩

/-- For every step in force the controller has its definition, or has revised it. -/
def Prepared (state : Retrying) : Prop :=
  ∀ flowId s, s ∈ state.engine.steps flowId -> ∃ entry,
    state.controller.stepCache (flowId, s.id) = some entry ∧
      (entry.dispatches s.tool s.args ∨ state.advised (flowId, s.id) = some entry)

theorem advised_of_other (other : input.event.eventType ≠ .stepFailed) :
    (state.step config input).advised = state.advised := by
  funext key
  change (if (state.session config input).made.any _ then _ else _) = _
  rw [session_of_other other]
  rfl

theorem prepared_of_proposed (proposed : input.event.eventType = .dagProposed)
    (prepared : Prepared state) (informed : Informed config state input) :
    Prepared (state.step config input) := by
  have other : input.event.eventType ≠ .stepFailed := by rw [proposed]; exact nofun
  have defines : ∀ s ∈ (state.step config input).engine.steps input.event.flowId,
      ∀ entry ∈ input.event.payload.steps.getD [], entry.id = some s.id ->
        entry.dispatches s.tool s.args := by
    unfold Informed at informed
    rw [proposed] at informed
    exact informed
  intro flowId s member
  rw [advised_of_other other]
  have cached := (session_of_proposed config state proposed).cached
    (flowId, s.id)
  rcases cached with ⟨same, entry, inEntries, named, now⟩ | ⟨unchanged, absent⟩
  · have sameFlow : flowId = input.event.flowId := same
    subst sameFlow
    exact ⟨entry, now, .inl (defines s member entry inEntries named)⟩
  · have before : s ∈ state.engine.steps flowId := by
      by_cases same : flowId = input.event.flowId
      · subst same
        refine (mem_steps_of_proposed proposed member).resolve_right ?_
        rintro ⟨entry, inEntries, named⟩
        exact absent rfl entry inEntries named
      · rw [steps_after, if_neg same] at member
        exact member
    rcases prepared flowId s before with ⟨entry, now, known⟩
    exact ⟨entry, unchanged.trans now, known⟩

theorem prepared_of_failed (failed : input.event.eventType = .stepFailed)
    (prepared : Prepared state) : Prepared (state.step config input) := by
  intro flowId s member
  rw [steps_of_other (by rw [failed]; exact nofun) (by rw [failed]; exact nofun)] at member
  rcases prepared flowId s member with ⟨entry, before, known⟩
  have remembers := session_of_failed config state failed
  have advised : (state.step config input).advised (flowId, s.id) =
      if (state.session config input).made.any (fun made => made.call.revises (flowId, s.id)) then
        (state.session config input).controller.stepCache (flowId, s.id)
      else state.advised (flowId, s.id) := rfl
  by_cases same : (state.session config input).controller.stepCache (flowId, s.id) =
      state.controller.stepCache (flowId, s.id)
  · refine ⟨entry, same.trans before, known.imp_right fun was => ?_⟩
    rw [advised]
    split
    · exact same.trans before
    · exact was
  · rcases remembers.revised (flowId, s.id) same with ⟨present, announced⟩
    rcases Option.isSome_iff_exists.mp present with ⟨revision, now⟩
    refine ⟨revision, now, .inr ?_⟩
    rw [advised, if_pos announced]
    exact now

theorem prepared_of_mutated (mutated : input.event.eventType = .dagMutated)
    (prepared : Prepared state) (informed : Informed config state input) :
    Prepared (state.step config input) := by
  have other : input.event.eventType ≠ .stepFailed := by rw [mutated]; exact nofun
  have same : (state.step config input).controller = state.controller :=
    session_cache_of_other (by rw [mutated]; exact nofun) other
  unfold Informed at informed
  rw [mutated] at informed
  intro flowId s member
  rw [advised_of_other other, same]
  by_cases here : flowId = input.event.flowId
  · subst here
    rcases informed s member with before | known
    · exact prepared _ s before
    · exact known
  · rw [steps_after, if_neg here] at member
    exact prepared flowId s member

theorem prepared_step (prepared : Prepared state) (informed : Informed config state input) :
    Prepared (state.step config input) := by
  by_cases proposed : input.event.eventType = .dagProposed
  · exact prepared_of_proposed proposed prepared informed
  by_cases failed : input.event.eventType = .stepFailed
  · exact prepared_of_failed failed prepared
  by_cases mutated : input.event.eventType = .dagMutated
  · exact prepared_of_mutated mutated prepared informed
  have same : (state.step config input).controller = state.controller :=
    session_cache_of_other proposed failed
  intro flowId s member
  rw [steps_of_other proposed mutated] at member
  rw [advised_of_other failed, same]
  exact prepared flowId s member

theorem retries_of_prepared (prepared : Prepared state) (informed : Informed config state input) :
    RetriesInForce config state input := by
  intro made member flowId sid
  by_cases failed : input.event.eventType = .stepFailed
  · have faithful := (session_of_failed config state failed).faithful
      made member
    refine ⟨fun tool args call => ?_, fun forgets inForce => ?_⟩
    · rcases faithful.retries flowId sid tool args call with
        ⟨retriable, rfl, named, entry, cached, dispatched⟩
      unfold Informed at informed
      rw [failed] at informed
      rcases informed retriable sid named with inForce | unknown | revised
      · rcases List.mem_map.mp inForce with ⟨s, inSteps, rfl⟩
        rcases prepared _ s inSteps with ⟨known, now, agrees⟩
        cases cached.symm.trans now
        rcases agrees with agrees | set
        · exact .inl ⟨s, inSteps, rfl, dispatched.1.trans agrees.1.symm,
            dispatched.2.trans agrees.2.symm⟩
        · exact .inr ⟨entry, set, dispatched⟩
      · cases cached.symm.trans unknown
      · exact .inr ⟨entry, revised.symm.trans cached, dispatched⟩
    · rcases List.mem_map.mp inForce with ⟨s, inSteps, rfl⟩
      rcases prepared flowId s inSteps with ⟨known, now, _⟩
      cases (faithful.forgets _ forgets).symm.trans now
  · rw [session_of_other failed] at member
    cases member

/-- In a run in which the controller is told of every definition it may have to
use, every retry by rule dispatches what is in force. -/
theorem retries_in_force (config : RecoveryConfig) (inputs : List Handled)
    (informed : (retryingMachine config).EveryStep (Informed config) inputs) :
    (retryingMachine config).EveryStep (RetriesInForce config) inputs :=
  (retryingMachine config).everyStep_of_guarded Prepared (Informed config)
    (fun flowId s member => by cases member) (fun _ _ => prepared_step)
    (fun _ _ => retries_of_prepared) inputs informed

def fetchOtherwise : FlowEvent :=
  { flowId := 1, eventType := .dagMutated, actor := .agent
    payload :=
      { modified := some [{ id := some "fetch", title := some "fetch", tool := some (.str "curl") }] } }

def fetchTimesOut : FlowEvent :=
  { flowId := 1, eventType := .stepFailed, actor := .worker
    payload := { stepId := some "fetch", error := some "timeout" } }

def Json.name : Json -> Option String
  | .str text => some text
  | _ => none

/-- The retry of a proposed step. -/
theorem retries_in_force_fetch : (retryingMachine {}).EveryStep (RetriesInForce {})
      [{ event := fetchProposal }, { event := fetchTimesOut }] := by
  refine retries_in_force {} _ ((Machine.everyStep_iff_stepsFrom _ _ _).mpr ⟨?_, ?_, trivial⟩)
  · have proposed : (Retrying.step {} {} { event := fetchProposal }).engine.steps 1 =
        [{ id := "fetch", title := "fetch", tool := .str "web", args := .obj [] }] := rfl
    intro s member entry inEntries _
    have sameStep := List.mem_singleton.mp (proposed ▸ member)
    have sameEntry := List.mem_singleton.mp inEntries
    subst sameStep sameEntry
    exact ⟨rfl, rfl⟩
  · intro _ sid named
    cases named
    exact .inl (by decide)

def Session.ruleRetries (session : Session) : List (UUID × StepId × String) :=
  session.made.filterMap fun made => match made.call with
    | .redispatch .rule flowId sid (.str tool) _ => some (flowId, sid, tool)
    | _ => none

/-- The modified step is retried with the tool it was proposed with. -/
theorem replaced_step_retried : Not (∀ config inputs,
    (retryingMachine config).EveryStep (RetriesInForce config) inputs) := by
  intro claimed
  let earlier : List Handled := [{ event := fetchProposal }, { event := fetchOtherwise }]
  let last : Handled := { event := fetchTimesOut }
  have inForce := claimed {} (earlier ++ [last]) earlier last [] rfl
  have retried : (1, "fetch", "web") ∈
      (((retryingMachine {}).after earlier).session {} last).ruleRetries := by decide +kernel
  have tools : (((retryingMachine {}).after earlier).engine.steps 1).map (fun s => Json.name s.tool) =
      [some "curl"] := by decide
  have unadvised : ((retryingMachine {}).after earlier).advised (1, "fetch") = none := rfl
  rcases List.mem_filterMap.mp retried with ⟨made, member, selected⟩
  split at selected
  · rename_i flowId sid tool args call
    cases selected
    rcases (inForce made member 1 "fetch").1 _ _ call with ⟨s, inSteps, _, same, _⟩ | ⟨entry, set, _⟩
    · have named := List.mem_map_of_mem (f := fun s => Json.name s.tool) inSteps
      rw [tools, ← same] at named
      exact absurd named (by decide)
    · cases unadvised.symm.trans set
  · cases selected

end Flow
end BreadMind
