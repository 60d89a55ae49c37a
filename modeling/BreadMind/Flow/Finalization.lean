import BreadMind.Flow.Scheduling

namespace BreadMind
namespace Flow

/-!
# Ending a flow

A flow ends with one terminal event.  The finalized flag is set before that
event is published and never taken back, and both places that publish one
test it first, so no flow is ended twice.

The flag is tested before a mutation is applied, but neither a proposal nor
a completion that leaves the flow unfinished tests it on the way to the
scheduler.  A flow that was failed by an escalation can therefore still queue
and launch the successors of a step that was running when it ended.
-/

/-! ## At most one terminal event -/

def LogEntry.terminal? (entry : LogEntry) : Option FlowEvent :=
  match entry.call with
  | .publish event => if event.eventType.terminal then some event else none
  | .dispatch _ _ _ _ => none

variable (engine : FlowEngine) (input : World × FlowEvent)

def terminalEvents : List FlowEvent :=
  (handle input.1 (engine.state input.2.flowId) input.2).log.filterMap LogEntry.terminal?

def terminalEventsOf (flowId : UUID) (inputs : List (World × FlowEvent)) : List FlowEvent :=
  (engineMachine.outputs terminalEvents inputs).filter (fun event => event.flowId = flowId)

theorem terminal?_launchEntry {flowId : UUID} {base : FlowState} {dag : DAG}
    {ready : List StepId} {entry : LogEntry} (launched : LaunchEntry flowId base dag ready entry) :
    entry.terminal? = none := by
  cases launched <;> rfl

theorem handle_finalized {world : World} {st : FlowState} {event : FlowEvent}
    (finalized : st.finalized = true) : (handle world st event).state.finalized = true := by
  have outcome := handles world st event
  generalize handle world st event = handling at outcome
  cases outcome with
  | @schedules entered enters =>
    rcases (scheduleNext_spec world event.flowId entered).2 with ⟨marked, state, _⟩
    rw [state]
    cases enters <;> exact finalized
  | finishes ends => cases ends <;> rfl
  | rejects => exact finalized
  | settles stays => cases stays <;> exact finalized

theorem terminalEvents_cases (world : World) (st : FlowState) (event : FlowEvent) :
    (handle world st event).log.filterMap LogEntry.terminal? = [] ∨
      (st.finalized = false ∧ (handle world st event).state.finalized = true ∧
        ∃ terminal, terminal.flowId = event.flowId ∧
          (handle world st event).log.filterMap LogEntry.terminal? = [terminal]) := by
  have outcome := handles world st event
  generalize handle world st event = handling at outcome
  cases outcome with
  | @schedules entered enters =>
    refine .inl (List.filterMap_eq_nil_iff.mpr ?_)
    intro entry member
    rcases (scheduleNext_spec world event.flowId entered).1 entry member with ⟨_, _, launched⟩
    exact terminal?_launchEntry launched
  | finishes ends =>
    refine Or.inr ?_
    cases ends with
    | @completed sid kind named done live =>
      exact ⟨live, rfl, flowCompletedEvent event.flowId (st.complete sid), rfl, rfl⟩
    | escalated kind live => exact ⟨live, rfl, flowFailedEvent event, rfl, rfl⟩
  | rejects => exact .inl rfl
  | settles => exact .inl rfl

theorem terminalEventsOf_length (flowId : UUID) (inputs : List (World × FlowEvent)) :
    (terminalEventsOf flowId inputs).length ≤
      if ((engineMachine.after inputs).state flowId).finalized then 1 else 0 := by
  induction inputs using List.reverseRecOn with
  | nil => exact Nat.zero_le _
  | append_singleton earlier input ih =>
    unfold terminalEventsOf at ih ⊢
    rw [Execution.Machine.outputs_append_singleton, List.filter_append, List.length_append,
      Execution.Machine.after_append_singleton]
    change _ + _ ≤ if (((engineMachine.after earlier).handle input.1 input.2).state flowId).finalized
      then 1 else 0
    by_cases same : flowId = input.2.flowId
    · subst same
      rw [FlowEngine.state_handle_same]
      rcases terminalEvents_cases input.1 ((engineMachine.after earlier).state input.2.flowId)
        input.2 with quiet | ⟨live, ended, terminal, flow, published⟩
      · have nothing : terminalEvents (engineMachine.after earlier) input = [] := quiet
        rw [nothing, List.filter_nil, List.length_nil, Nat.add_zero]
        refine Nat.le_trans ih ?_
        cases finalized : ((engineMachine.after earlier).state input.2.flowId).finalized with
        | false => exact Nat.zero_le _
        | true => rw [handle_finalized finalized]
      · have one : terminalEvents (engineMachine.after earlier) input = [terminal] := published
        rw [live] at ih
        have before : (List.filter (fun event => decide (event.flowId = input.2.flowId))
            (engineMachine.outputs terminalEvents earlier)).length = 0 :=
          Nat.le_zero.mp ih
        rw [before, one, ended]
        exact Nat.le_trans (Nat.le_of_eq (Nat.zero_add _)) (List.length_filter_le _ _)
    · rw [FlowEngine.state_handle_other _ _ _ _ same]
      have elsewhere : (terminalEvents (engineMachine.after earlier) input).filter
          (fun event => event.flowId = flowId) = [] := by
        rcases terminalEvents_cases input.1 ((engineMachine.after earlier).state input.2.flowId)
          input.2 with quiet | ⟨_, _, terminal, flow, published⟩
        · have nothing : terminalEvents (engineMachine.after earlier) input = [] := quiet
          rw [nothing, List.filter_nil]
        · have one : terminalEvents (engineMachine.after earlier) input = [terminal] := published
          rw [one, List.filter_cons_of_neg]
          · rfl
          · intro chosen
            exact same ((of_decide_eq_true chosen).symm.trans flow)
      rw [elsewhere, List.length_nil, Nat.add_zero]
      exact ih

/-! ## Launches after the end -/

def Call.startsStep : Call -> Bool
  | .publish event => decide (event.eventType = .stepQueued)
  | .dispatch _ _ _ _ => true

/-- Once the flow of the event is finalized, handling the event queues and
launches nothing. -/
def NoLaunchOnceFinalized : Prop :=
  (engine.state input.2.flowId).finalized = true ->
    ∀ entry ∈ (handle input.1 (engine.state input.2.flowId) input.2).log,
      entry.call.startsStep = false

/-- An event that takes a finalized flow to the scheduler finds every ready
step queued or running there. -/
def NothingReadyOnceFinalized : Prop :=
  (engine.state input.2.flowId).finalized = true ->
    ∀ entered, Schedules input.1 (engine.state input.2.flowId) input.2 entered ->
      ∀ valid, entered.dag = some valid ->
        ∀ sid ∈ valid.dag.readySteps entered.completed,
          sid ∈ entered.queued ∨ sid ∈ entered.running

theorem scheduleReady_announces (world : World) (flowId : UUID) (dag : DAG) (rest : List StepId)
    (known : ∀ sid ∈ rest, sid ∈ dag.ids) (h : Handling) (quiet : h.raised = none)
    (idle : ∃ sid ∈ rest, ¬ (sid ∈ h.state.queued ∨ sid ∈ h.state.running)) :
    ∃ entry ∈ (scheduleReady world flowId dag rest h).log, entry.call.startsStep = true := by
  induction rest with
  | nil =>
    rcases idle with ⟨sid, member, _⟩
    cases member
  | cons head rest ih =>
    rw [scheduleReady, quiet]
    simp only [Option.isSome_none, Bool.false_eq_true, if_false]
    by_cases busy : head ∈ h.state.queued ∨ head ∈ h.state.running
    · rw [if_pos busy]
      refine ih (fun sid later => known sid (List.mem_cons_of_mem _ later)) ?_
      rcases idle with ⟨sid, member, free⟩
      rcases List.mem_cons.mp member with same | later
      · exact False.elim (free (same ▸ busy))
      · exact ⟨sid, later, free⟩
    · rw [if_neg busy]
      cases found : dag.steps.find? (fun s => s.id = head) with
      | none =>
        rcases List.mem_map.mp (known head List.mem_cons_self) with ⟨s, stepMember, named⟩
        have absent := List.find?_eq_none.mp found s stepMember
        exact False.elim (absent (decide_eq_true named))
      | some step =>
        refine ⟨_, scheduleReady_log_prefix world flowId dag rest _ _
          (launch_announces world flowId step h), ?_⟩
        rfl

theorem starts_idle_ready {world : World} {st : FlowState} {event : FlowEvent} {entry : LogEntry}
    (member : entry ∈ (handle world st event).log) (starts : entry.call.startsStep = true) :
    ∃ entered, Schedules world st event entered ∧ ∃ valid,
      entered.dag = some valid ∧ ∃ sid ∈ valid.dag.readySteps entered.completed,
          ¬ (sid ∈ entered.queued ∨ sid ∈ entered.running) := by
  have outcome := handles world st event
  generalize handle world st event = handling at outcome member
  cases outcome with
  | @schedules entered enters =>
    rcases (scheduleNext_spec world event.flowId entered).1 entry member with
      ⟨valid, held, launched⟩
    have idle : ∀ picked step,
        Picked entered valid.dag (valid.dag.readySteps entered.completed) picked step ->
        ¬ (step.id ∈ entered.queued ∨ step.id ∈ entered.running) := by
      intro picked step choice busy
      rcases choice.further with ⟨more, same⟩
      rcases busy with queued | running
      · exact choice.notQueued (same ▸ Finset.mem_union_left _ queued)
      · exact choice.notRunning (same ▸ running)
    cases launched with
    | announced choice => exact ⟨entered, enters, valid, held, _, choice.isReady, idle _ _ choice⟩
    | dispatched choice => exact ⟨entered, enters, valid, held, _, choice.isReady, idle _ _ choice⟩
    | refused => cases starts
  | finishes ends =>
    rw [List.mem_singleton.mp member] at starts
    cases ends <;> cases starts
  | rejects =>
    rw [List.mem_singleton.mp member] at starts
    cases starts
  | settles => cases member

theorem noLaunch_iff_nothingReady :
    NoLaunchOnceFinalized engine input <-> NothingReadyOnceFinalized engine input := by
  constructor
  · intro silent finalized entered enters valid held sid ready
    by_contra idle
    rcases scheduleReady_announces input.1 input.2.flowId valid.dag
      (valid.dag.readySteps entered.completed) (fun _ => mem_ids_of_mem_readySteps)
      { state := entered } rfl ⟨sid, ready, idle⟩ with ⟨entry, logged, starts⟩
    have none_ := silent finalized entry (log_of_schedules enters held ▸ logged)
    rw [starts] at none_
    cases none_
  · intro busy finalized entry member
    cases starts : entry.call.startsStep with
    | false => rfl
    | true =>
      rcases starts_idle_ready member starts with ⟨entered, enters, valid, held, sid, ready, idle⟩
      exact False.elim (idle (busy finalized entered enters valid held sid ready))

/-- Every run ends each flow at most once, and no step is queued or launched
after the end exactly when no event takes a finalized flow to the scheduler
with an idle ready step. -/
theorem finalization_run (inputs : List (World × FlowEvent)) :
    ((∀ flowId, (terminalEventsOf flowId inputs).length ≤ 1) ∧
        engineMachine.EveryStep NoLaunchOnceFinalized inputs) <->
      engineMachine.EveryStep NothingReadyOnceFinalized inputs := by
  have once : ∀ flowId, (terminalEventsOf flowId inputs).length ≤ 1 := by
    intro flowId
    refine Nat.le_trans (terminalEventsOf_length flowId inputs) ?_
    split
    · exact Nat.le_refl 1
    · exact Nat.zero_le 1
  constructor
  · rintro ⟨_, silent⟩
    exact Execution.Machine.EveryStep.mono engineMachine silent
      (fun engine input => (noLaunch_iff_nothingReady engine input).mp)
  · intro busy
    exact ⟨once, Execution.Machine.EveryStep.mono engineMachine busy
      (fun engine input => (noLaunch_iff_nothingReady engine input).mpr)⟩

def dependentStep (sid dep : StepId) : StepDict :=
  { id := some sid, title := some sid, tool := some (.str "shell_exec"), dependsOn := some [dep] }

/-- `parse` is launched although the flow failed while `fetch` was running. -/
theorem launched_after_escalation : ¬ ∀ inputs,
    (∀ flowId, (terminalEventsOf flowId inputs).length ≤ 1) ∧
      engineMachine.EveryStep NoLaunchOnceFinalized inputs := by
  intro claimed
  let earlier := [proposal [independentStep "fetch", dependentStep "parse" "fetch"],
    stepEvent .escalationRaised "fetch"]
  let last := stepEvent .stepCompleted "fetch"
  have silent := (claimed (earlier ++ [last])).2 earlier last [] rfl (by decide)
  have launched : (handle last.1 ((engineMachine.after earlier).state 1) last.2).log.any
      (fun entry => entry.call.startsStep) = true := by decide
  rcases List.any_eq_true.mp launched with ⟨entry, member, starts⟩
  have none_ := silent entry member
  rw [starts] at none_
  cases none_

end Flow
end BreadMind
