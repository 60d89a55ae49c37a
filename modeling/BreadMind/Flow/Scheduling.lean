import BreadMind.Flow.Engine

namespace BreadMind
namespace Flow

/-!
# What the scheduler launches

The scheduler walks over the ready steps and skips those queued or running.
Every call it logs belongs to a step which it picked, in a state that differs
from the one it was entered with only in further queued steps.  From this
follows what every launch of a run satisfies without conditions: the step is
in the DAG then in force, its dependencies completed, and it is neither
completed, queued nor running.

The scheduler does not read the failed set.  A failed step is still ready, so
the next event that reaches the scheduler launches it again, while the
recovery controller is waiting out its backoff for the same step.  The last
part says exactly when this does not happen.
-/

def FlowState.queueAll (st : FlowState) (more : Finset StepId) : FlowState :=
  { st with queued := st.queued ∪ more }

theorem FlowState.queueAll_empty (st : FlowState) : st.queueAll ∅ = st := by
  simp only [queueAll, Finset.union_empty]

theorem FlowState.queue_queueAll (st : FlowState) (more : Finset StepId) (sid : StepId) :
    (st.queueAll more).queue sid = st.queueAll (insert sid more) := by
  simp only [queueAll, queue, Finset.union_insert]

/-! ## The entries of one scheduling pass -/

structure Picked (base : FlowState) (dag : DAG) (ready : List StepId)
    (picked : FlowState) (step : Step) : Prop where
  listed : step ∈ dag.steps
  isReady : step.id ∈ ready
  further : ∃ more, picked = base.queueAll more
  notQueued : step.id ∉ picked.queued
  notRunning : step.id ∉ picked.running

inductive LaunchEntry (flowId : UUID) (base : FlowState) (dag : DAG) (ready : List StepId) :
    LogEntry -> Prop where
  | announced {picked : FlowState} {step : Step} (choice : Picked base dag ready picked step) :
      LaunchEntry flowId base dag ready ⟨picked, .publish (stepQueuedEvent flowId step.id)⟩
  | dispatched {picked : FlowState} {step : Step} (choice : Picked base dag ready picked step) :
      LaunchEntry flowId base dag ready ⟨picked, .dispatch flowId step.id step.tool step.args⟩
  | refused {current : FlowState} {sid : StepId} {failure : PyError} :
      LaunchEntry flowId base dag ready ⟨current, .publish (dispatchFailedEvent flowId sid failure)⟩

@[simp] theorem launch_state (world : World) (flowId : UUID) (step : Step) (h : Handling) :
    (launch world flowId step h).state = h.state.queue step.id := by
  unfold launch
  dsimp only
  split
  · rfl
  · split <;> rfl

theorem launch_announces (world : World) (flowId : UUID) (step : Step) (h : Handling) :
    ⟨h.state, .publish (stepQueuedEvent flowId step.id)⟩ ∈ (launch world flowId step h).log := by
  have announced : (⟨h.state, .publish (stepQueuedEvent flowId step.id)⟩ : LogEntry) ∈
      h.log ++ [⟨h.state, .publish (stepQueuedEvent flowId step.id)⟩] :=
    List.mem_append_right _ (List.mem_singleton_self _)
  unfold launch
  dsimp only
  split
  · exact announced
  · split
    · exact List.mem_append_left _ announced
    · exact List.mem_append_left _ (List.mem_append_left _ announced)

theorem launch_log (world : World) (flowId : UUID) (step : Step) (h : Handling)
    {base : FlowState} {dag : DAG} {ready : List StepId}
    (choice : Picked base dag ready h.state step) :
    ∃ new, (launch world flowId step h).log = h.log ++ new ∧
      ∀ entry ∈ new, LaunchEntry flowId base dag ready entry := by
  let announce : LogEntry := ⟨h.state, .publish (stepQueuedEvent flowId step.id)⟩
  let send : LogEntry := ⟨h.state, .dispatch flowId step.id step.tool step.args⟩
  have announced : LaunchEntry flowId base dag ready announce := .announced choice
  have dispatched : LaunchEntry flowId base dag ready send := .dispatched choice
  unfold launch
  dsimp only
  split
  · refine ⟨[announce], rfl, ?_⟩
    intro entry member
    exact List.mem_singleton.mp member ▸ announced
  · split
    · refine ⟨[announce, send], ?_, ?_⟩
      · exact List.append_assoc h.log [announce] [send]
      · intro entry member
        rcases List.mem_pair.mp member with same | same
        · exact same ▸ announced
        · exact same ▸ dispatched
    · rename_i failure _
      let refuse : LogEntry :=
        ⟨h.state.queue step.id, .publish (dispatchFailedEvent flowId step.id failure)⟩
      refine ⟨[announce, send, refuse], ?_, ?_⟩
      · change ((h.log ++ [announce]) ++ [send]) ++ [refuse] = _
        rw [List.append_assoc, List.append_assoc]
        rfl
      · intro entry member
        rcases List.mem_cons.mp member with same | later
        · exact same ▸ announced
        · rcases List.mem_pair.mp later with same | same
          · exact same ▸ dispatched
          · exact same ▸ .refused

variable {sid : StepId}

theorem find_step {steps : List Step} {step : Step}
    (found : steps.find? (fun s => s.id = sid) = some step) : step ∈ steps ∧ step.id = sid :=
  ⟨List.mem_of_find?_eq_some found, by simpa using List.find?_some found⟩

/-- One pass of the scheduler.  The induction is on the ready steps still to
visit; `base` is the state the pass was entered with. -/
theorem scheduleReady_spec (world : World) (flowId : UUID) (dag : DAG)
    (base : FlowState) (ready rest : List StepId)
    (part : ∀ sid ∈ rest, sid ∈ ready) (h : Handling) (more : Finset StepId)
    (current : h.state = base.queueAll more) (within : ∀ sid ∈ more, sid ∈ ready) :
    (∃ new, (scheduleReady world flowId dag rest h).log = h.log ++ new ∧
      ∀ entry ∈ new, LaunchEntry flowId base dag ready entry) ∧
    ∃ marked, (scheduleReady world flowId dag rest h).state = base.queueAll marked ∧
      ∀ sid ∈ marked, sid ∈ ready := by
  induction rest generalizing h more with
  | nil =>
    exact ⟨⟨[], (List.append_nil _).symm, fun entry member => by cases member⟩,
      more, current, within⟩
  | cons sid rest ih =>
    have restPart : ∀ other ∈ rest, other ∈ ready :=
      fun other member => part other (List.mem_cons_of_mem _ member)
    rw [scheduleReady]
    split
    · exact ⟨⟨[], (List.append_nil _).symm, fun entry member => by cases member⟩,
        more, current, within⟩
    · split
      · exact ih restPart h more current within
      · rename_i free
        split
        · exact ih restPart h more current within
        · rename_i step found
          have ⟨listed, named⟩ := find_step found
          have visited : step.id ∈ ready := named ▸ part sid List.mem_cons_self
          have choice : Picked base dag ready h.state step :=
            { listed := listed
              isReady := visited
              further := ⟨more, current⟩
              notQueued := fun queued => free (.inl (named ▸ queued))
              notRunning := fun running => free (.inr (named ▸ running)) }
          rcases launch_log world flowId step h choice with ⟨first, firstLog, firstEntries⟩
          have next : (launch world flowId step h).state = base.queueAll (insert step.id more) := by
            rw [launch_state, current, FlowState.queue_queueAll]
          have nextWithin : ∀ other ∈ insert step.id more, other ∈ ready := by
            intro other member
            rcases Finset.mem_insert.mp member with same | old
            · exact same ▸ visited
            · exact within other old
          have ⟨⟨later, laterLog, laterEntries⟩, final⟩ :=
            ih restPart (launch world flowId step h) _ next nextWithin
          refine ⟨⟨first ++ later, ?_, ?_⟩, final⟩
          · rw [laterLog, firstLog, List.append_assoc]
          · intro entry member
            rcases List.mem_append.mp member with early | late
            · exact firstEntries entry early
            · exact laterEntries entry late

theorem scheduleNext_spec (world : World) (flowId : UUID) (entered : FlowState) :
    (∀ entry ∈ (scheduleNext world flowId { state := entered }).log,
      ∃ valid, entered.dag = some valid ∧
        LaunchEntry flowId entered valid.dag (valid.dag.readySteps entered.completed) entry) ∧
    ∃ marked, (scheduleNext world flowId { state := entered }).state = entered.queueAll marked ∧
      ∀ sid ∈ marked, ∃ valid, entered.dag = some valid ∧
        sid ∈ valid.dag.readySteps entered.completed := by
  unfold scheduleNext
  dsimp only
  split
  · exact ⟨(fun entry member => by cases member),
      ∅, (FlowState.queueAll_empty _).symm, fun sid member => by cases member⟩
  · rename_i valid held
    have ⟨⟨new, log, entries⟩, marked, state, within⟩ :=
      scheduleReady_spec world flowId valid.dag entered (valid.dag.readySteps entered.completed)
        (valid.dag.readySteps entered.completed) (fun _ member => member)
        { state := entered } ∅ (FlowState.queueAll_empty _).symm
        (fun sid member => by cases member)
    refine ⟨?_, marked, state, ?_⟩
    · intro entry member
      rw [log] at member
      exact ⟨valid, held, entries entry member⟩
    · intro sid member
      exact ⟨valid, held, within sid member⟩

/-- No announcement raises in this world; a dispatch still may. -/
def World.PublishesSucceed (world : World) : Prop :=
  ∀ calls event, world.raises calls (.publish event) = none

theorem launch_complete (world : World) (succeeds : world.PublishesSucceed)
    (flowId : UUID) (step : Step) (h : Handling) : (launch world flowId step h).raised = none ∧
      ⟨h.state, .dispatch flowId step.id step.tool step.args⟩ ∈ (launch world flowId step h).log := by
  have announced : world.raises (h.log.map LogEntry.call)
      (.publish (stepQueuedEvent flowId step.id)) = none := succeeds _ _
  unfold launch
  simp only [Handling.perform, announced]
  split
  · rename_i accepted
    exact ⟨accepted, List.mem_append_right _ (List.mem_singleton_self _)⟩
  · refine ⟨succeeds _ _, ?_⟩
    exact List.mem_append_left _ (List.mem_append_right _ (List.mem_singleton_self _))

theorem scheduleReady_log_prefix (world : World) (flowId : UUID) (dag : DAG)
    (rest : List StepId) (h : Handling) (entry : LogEntry) (member : entry ∈ h.log) :
    entry ∈ (scheduleReady world flowId dag rest h).log := by
  have ⟨⟨new, log, _⟩, _⟩ := scheduleReady_spec world flowId dag h.state rest
    rest (fun _ listed => listed) h ∅ (FlowState.queueAll_empty _).symm
    (fun sid impossible => by cases impossible)
  rw [log]
  exact List.mem_append_left _ member

theorem scheduleReady_complete (world : World) (succeeds : world.PublishesSucceed)
    (flowId : UUID) (dag : DAG) (base : FlowState) (rest : List StepId)
    (known : ∀ sid ∈ rest, sid ∈ dag.ids) (h : Handling) (quiet : h.raised = none)
    (more : Finset StepId) (current : h.state = base.queueAll more)
    (sid : StepId) (member : sid ∈ rest) (notQueued : sid ∉ h.state.queued)
    (notRunning : sid ∉ base.running) : ∃ picked further tool args, picked = base.queueAll further ∧
      ⟨picked, .dispatch flowId sid tool args⟩ ∈ (scheduleReady world flowId dag rest h).log := by
  induction rest generalizing h more with
  | nil => cases member
  | cons head rest ih =>
    have restKnown : ∀ other ∈ rest, other ∈ dag.ids :=
      fun other later => known other (List.mem_cons_of_mem _ later)
    have running : h.state.running = base.running := by rw [current]; rfl
    rw [scheduleReady, quiet]
    simp only [Option.isSome_none, Bool.false_eq_true, if_false]
    by_cases busy : head ∈ h.state.queued ∨ head ∈ h.state.running
    · rw [if_pos busy]
      have later : sid ∈ rest := by
        rcases List.mem_cons.mp member with same | later
        · subst same
          rcases busy with queued | active
          · exact False.elim (notQueued queued)
          · exact False.elim (notRunning (running ▸ active))
        · exact later
      exact ih restKnown h quiet more current later notQueued
    · rw [if_neg busy]
      have listed := known head List.mem_cons_self
      cases found : dag.steps.find? (fun s => s.id = head) with
      | none =>
        rcases List.mem_map.mp listed with ⟨s, stepMember, named⟩
        have absent := List.find?_eq_none.mp found s stepMember
        exact False.elim (absent (decide_eq_true named))
      | some step =>
        have named := (find_step found).2
        have complete := launch_complete world succeeds flowId step h
        by_cases same : sid = head
        · refine ⟨h.state, more, step.tool, step.args, current, ?_⟩
          apply scheduleReady_log_prefix
          rw [same, ← named]
          exact complete.2
        · have later := (List.mem_cons.mp member).resolve_left same
          refine ih restKnown (launch world flowId step h) complete.1
            (insert step.id more) ?_ later ?_
          · rw [launch_state, current, FlowState.queue_queueAll]
          · rw [launch_state]
            intro queued
            rcases Finset.mem_insert.mp queued with equal | old
            · exact same (equal.trans named)
            · exact notQueued old

/-! ## Legitimate launches -/

/-- What a dispatch call should find in the state the step was picked in. -/
structure LegitimateLaunch (st : FlowState) (sid : StepId) : Prop where
  inForce : ∃ valid, st.dag = some valid ∧ ∃ step ∈ valid.dag.steps, step.id = sid ∧
      ∀ dep ∈ step.dependsOn, dep ∈ st.completed
  notCompleted : sid ∉ st.completed
  notQueued : sid ∉ st.queued
  notRunning : sid ∉ st.running
  notFailed : sid ∉ st.failed

variable (engine : FlowEngine) (input : World × FlowEvent)

/-- Every dispatch logged while the event is handled is a legitimate launch
of a step of that event's flow. -/
def LaunchesLegitimate : Prop :=
  ∀ entry ∈ (handle input.1 (engine.state input.2.flowId) input.2).log,
    ∀ flowId sid tool args, entry.call = .dispatch flowId sid tool args ->
      flowId = input.2.flowId ∧ LegitimateLaunch entry.state sid

/-- Whenever the event takes the flow to the scheduler, no failed step is
ready there without being queued or running. -/
def NoFailedStepReady : Prop :=
  ∀ entered, Schedules input.1 (engine.state input.2.flowId) input.2 entered ->
    ∀ valid, entered.dag = some valid ->
      ∀ sid ∈ valid.dag.readySteps entered.completed, sid ∈ entered.failed ->
        sid ∈ entered.queued ∨ sid ∈ entered.running

/-- The failed mark of a step is taken back by a queued event for it or by a
mutation which removes it, and by nothing else. -/
def FailureKeptUntilRequeued : Prop :=
  ∀ sid ∈ (engine.state input.2.flowId).failed,
    sid ∉ ((engine.handle input.1 input.2).state input.2.flowId).failed ->
      (input.2.eventType = .stepQueued ∧ input.2.payload.stepId = some sid) ∨
        (input.2.eventType = .dagMutated ∧ sid ∈ input.2.dagMutation.removed)

theorem dispatch_of_launchEntry {flowId other : UUID} {entered : FlowState} {valid : ValidDAG}
    (held : entered.dag = some valid) {entry : LogEntry} {tool : Json} {args : Json}
    (launched : LaunchEntry flowId entered valid.dag (valid.dag.readySteps entered.completed) entry)
    (call : entry.call = .dispatch other sid tool args) :
    other = flowId ∧ sid ∈ valid.dag.readySteps entered.completed ∧
      sid ∉ entry.state.queued ∧ sid ∉ entered.queued ∧ sid ∉ entered.running ∧
      (sid ∉ entered.failed -> LegitimateLaunch entry.state sid) := by
  cases launched with
  | announced choice => cases call
  | refused => cases call
  | @dispatched picked step choice =>
    cases call
    rcases choice.further with ⟨more, same⟩
    have notQueued := choice.notQueued
    have notRunning := choice.notRunning
    subst same
    rcases (DAG.mem_readySteps _ _ _).mp choice.isReady with ⟨s, listed, named, open_, met⟩
    refine ⟨rfl, choice.isReady, notQueued, ?_, notRunning, ?_⟩
    · intro queued
      exact notQueued (Finset.mem_union_left _ queued)
    · intro notFailed
      exact
        { inForce := ⟨valid, held, s, listed, named, met⟩
          notCompleted := open_
          notQueued := notQueued
          notRunning := notRunning
          notFailed := notFailed }

variable {world : World} {st : FlowState} {event : FlowEvent}

theorem dispatch_scheduled {entry : LogEntry}
    (member : entry ∈ (handle world st event).log) {flowId : UUID}
    {tool : Json} {args : Json} (call : entry.call = .dispatch flowId sid tool args) :
    ∃ entered, Schedules world st event entered ∧
      entry ∈ (scheduleNext world event.flowId { state := entered }).log := by
  have outcome := handles world st event
  cases handled : handle world st event with
  | mk state log raised =>
  rw [handled] at outcome member
  generalize same : ({ state, log, raised } : Handling) = handling at outcome member
  cases outcome with
  | schedules enters => exact ⟨_, enters, member⟩
  | finishes ends | rejects kind =>
    rw [List.mem_singleton.mp member] at call
    cases call
  | settles stays => cases member

theorem launches_of_noFailedStepReady
    (guarded : NoFailedStepReady engine input) : LaunchesLegitimate engine input := by
  intro entry member flowId sid tool args call
  rcases dispatch_scheduled member call with ⟨entered, enters, logged⟩
  rcases (scheduleNext_spec input.1 input.2.flowId entered).1 entry logged with
    ⟨valid, held, launched⟩
  have ⟨sameFlow, ready, _, notQueued, notRunning, legitimate⟩ :=
    dispatch_of_launchEntry held launched call
  refine ⟨sameFlow, legitimate ?_⟩
  intro failed
  rcases guarded entered enters valid held sid ready failed with queued | running
  · exact notQueued queued
  · exact notRunning running

theorem mem_ids_of_mem_readySteps {dag : DAG} {completed : Finset String} {sid : String}
    (ready : sid ∈ dag.readySteps completed) : sid ∈ dag.ids := by
  rcases (DAG.mem_readySteps _ _ _).mp ready with ⟨s, listed, named, _⟩
  exact named ▸ List.mem_map_of_mem listed

theorem log_of_schedules {entered : FlowState} {valid : ValidDAG}
    (enters : Schedules world st event entered) (held : entered.dag = some valid) :
    (handle world st event).log = (scheduleReady world event.flowId valid.dag
      (valid.dag.readySteps entered.completed) { state := entered }).log := by
  have scheduled : scheduleNext world event.flowId { state := entered } =
      scheduleReady world event.flowId valid.dag (valid.dag.readySteps entered.completed)
        { state := entered } := by
    simp only [scheduleNext, held]
  rw [← scheduled]
  cases enters with
  | proposed kind read => simp only [handle, kind, read]
  | @completed sid kind named unfinished =>
    simp only [handle, kind, withStepId, named]
    cases done : (st.complete sid).allDone with
    | false => simp only [Bool.false_and, Bool.false_eq_true, if_false]
    | true =>
      have closed : (st.complete sid).finalized = true := unfinished done
      simp only [closed, Bool.not_true, Bool.and_false, Bool.false_eq_true, if_false]
  | mutated kind before live applied =>
    simp only [handle, kind, before, live, applied, Bool.false_eq_true, if_false]

theorem noFailedStepReady_of_launches
    (succeeds : input.1.PublishesSucceed) (legitimate : LaunchesLegitimate engine input) :
    NoFailedStepReady engine input := by
  intro entered enters valid held sid ready failed
  by_contra idle
  have ⟨picked, further, tool, args, same, logged⟩ :=
    scheduleReady_complete input.1 succeeds input.2.flowId valid.dag entered
      (valid.dag.readySteps entered.completed) (fun _ => mem_ids_of_mem_readySteps)
      { state := entered } rfl ∅
      (FlowState.queueAll_empty _).symm sid ready (fun queued => idle (.inl queued))
      (fun running => idle (.inr running))
  have launched := legitimate _ (log_of_schedules enters held ▸ logged) _ _ _ _ rfl
  subst same
  exact launched.2.notFailed failed

theorem failureKeptUntilRequeued : FailureKeptUntilRequeued engine input := by
  intro sid before gone
  rw [FlowEngine.state_handle_same] at gone
  have outcome := handles input.1 (engine.state input.2.flowId) input.2
  generalize handle input.1 (engine.state input.2.flowId) input.2 = handling at outcome gone
  cases outcome with
  | @schedules entered enters =>
    rcases (scheduleNext_spec input.1 input.2.flowId entered).2 with ⟨marked, state, _⟩
    rw [state] at gone
    cases enters with
    | proposed => exact False.elim (gone before)
    | completed => exact False.elim (gone before)
    | mutated kind =>
      refine .inr ⟨kind, ?_⟩
      by_contra kept
      exact gone (Finset.mem_sdiff.mpr ⟨before, fun removed => kept (List.mem_toFinset.mp removed)⟩)
  | finishes ends =>
    cases ends with
    | completed => exact False.elim (gone before)
    | escalated => exact False.elim (gone before)
  | rejects => exact False.elim (gone before)
  | settles stays =>
    cases stays with
    | unchanged => exact False.elim (gone before)
    | started => exact False.elim (gone before)
    | failed => exact False.elim (gone (Finset.mem_insert_of_mem before))
    | @queued other kind named =>
      by_cases same : sid = other
      · exact .inl ⟨kind, same ▸ named⟩
      · exact False.elim (gone (Finset.mem_erase.mpr ⟨same, before⟩))

/-- In every run whose events never bring an idle failed step to the scheduler, every
dispatch is legitimate, and failures stay marked as they should. When no announcement
raises, the condition is also necessary. -/
theorem launches_legitimate_run (inputs : List (World × FlowEvent)) :
    (engineMachine.EveryStep NoFailedStepReady inputs ->
      engineMachine.EveryStep LaunchesLegitimate inputs) ∧
    ((∀ input ∈ inputs, input.1.PublishesSucceed) ->
      engineMachine.EveryStep LaunchesLegitimate inputs ->
        engineMachine.EveryStep NoFailedStepReady inputs) ∧
    engineMachine.EveryStep FailureKeptUntilRequeued inputs := by
  refine ⟨?_, ?_, ?_⟩
  · intro guarded
    exact Execution.Machine.EveryStep.mono engineMachine guarded launches_of_noFailedStepReady
  · intro succeeds legitimate before input rest split
    have listed : input ∈ inputs := by
      rw [split]
      exact List.mem_append_right _ List.mem_cons_self
    exact noFailedStepReady_of_launches _ _ (succeeds input listed)
      (legitimate before input rest split)
  · intro before input rest _
    exact failureKeptUntilRequeued _ input

def independentStep (sid : StepId) : StepDict :=
  { id := some sid, title := some sid, tool := some (.str "shell_exec") }

def stepEvent (kind : EventType) (sid : StepId) : World × FlowEvent :=
  ({}, { flowId := 1, eventType := kind, payload := { stepId := some sid }, actor := .worker })

def proposal (steps : List StepDict) : World × FlowEvent :=
  ({}, { flowId := 1, eventType := .dagProposed, payload := { steps := some steps }, actor := .agent })

/-- The failed step is queued again before another one is completed. -/
theorem launches_legitimate_fetch : engineMachine.EveryStep LaunchesLegitimate
      [proposal [independentStep "fetch", independentStep "parse"], stepEvent .stepFailed "fetch",
        stepEvent .stepQueued "fetch", stepEvent .stepCompleted "parse"] := by
  refine (launches_legitimate_run _).1 ((Execution.Machine.everyStep_iff_stepsFrom _ _ _).mpr ?_)
  have clean : ∀ {engine : FlowEngine} {input : World × FlowEvent}, (∀ entered,
      Schedules input.1 (engine.state input.2.flowId) input.2 entered -> entered.failed = ∅) ->
        NoFailedStepReady engine input := by
    intro engine input none_ entered enters valid held sid ready failed
    rw [none_ entered enters] at failed
    exact absurd failed (Finset.notMem_empty sid)
  refine ⟨clean ?_, clean ?_, clean ?_, clean ?_, trivial⟩
  · intro entered enters
    cases enters with
    | proposed => rfl
    | completed kind => cases kind
    | mutated kind => cases kind
  · rintro entered (kind | kind | kind) <;> cases kind
  · rintro entered (kind | kind | kind) <;> cases kind
  · intro entered enters
    cases enters with
    | proposed kind => cases kind
    | completed kind named =>
      cases named
      decide
    | mutated kind => cases kind

def failedLaunches (h : Handling) : List StepId :=
  h.log.filterMap fun entry =>
    match entry.call with
    | .dispatch _ sid _ _ => if sid ∈ entry.state.failed then some sid else none
    | .publish _ => none

/-- While `fetch` waits for its retry, the completion of `parse` launches it again. -/
theorem failed_step_relaunched : ¬ ∀ inputs, engineMachine.EveryStep LaunchesLegitimate inputs := by
  intro claimed
  let earlier := [proposal [independentStep "fetch", independentStep "parse"],
    stepEvent .stepFailed "fetch"]
  let last := stepEvent .stepCompleted "parse"
  have legitimate := claimed (earlier ++ [last]) earlier last [] rfl
  have relaunched : failedLaunches (handle last.1 ((engineMachine.after earlier).state 1) last.2) =
      ["fetch"] := by decide
  have listed : "fetch" ∈ failedLaunches
      (handle last.1 ((engineMachine.after earlier).state 1) last.2) := by
    rw [relaunched]
    exact List.mem_singleton_self _
  rcases List.mem_filterMap.mp listed with ⟨entry, member, selected⟩
  cases call : entry.call with
  | publish event => simp only [call] at selected; cases selected
  | dispatch flowId sid tool args =>
    by_cases failed : sid ∈ entry.state.failed
    · exact (legitimate entry member flowId sid tool args call).2.notFailed failed
    · simp only [call, if_neg failed] at selected
      cases selected

end Flow
end BreadMind
