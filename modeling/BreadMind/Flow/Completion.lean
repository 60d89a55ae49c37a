import BreadMind.Flow.Finalization

namespace BreadMind
namespace Flow

/-!
# Finishing a flow

The engine ends a flow when a completion makes its completed set equal to the
identifiers of the DAG while nothing is queued or running.  Whether a flow is
over is therefore asked in one branch only, and of sets which also hold
identifiers that a mutation has taken out of the DAG.

What the flow has done is recorded beside the engine: a step has completed if
a completion of it was handled since it was last added.  The record is not
read by the engine.  A flow is left open when the record shows that its steps
are all done, none of them is queued or running, and still no terminal event
was published.
-/

variable (world : World)

/-- The record of one flow after an event.  A proposal adds the steps of its
DAG, an accepted mutation removes some and adds others. -/
def noteCompletion (st : FlowState) (event : FlowEvent) (done : Finset StepId) : Finset StepId :=
  match event.eventType with
  | .stepCompleted =>
    match event.payload.stepId with
    | none => done
    | some sid => insert sid done
  | .dagProposed =>
    match DAG.fromPayload world.frames (event.payload.steps.getD []) with
    | .error _ => done
    | .ok valid => done \ valid.dag.ids.toFinset
  | .dagMutated =>
    match st.dag with
    | none => done
    | some valid =>
      if st.finalized then done
      else
        match DAG.applyMutation world.frames valid.dag event.dagMutation with
        | .error _ => done
        | .ok _ => (done \ event.dagMutation.removed.toFinset) \
            (event.dagMutation.added.filterMap StepDict.id).toFinset
  | _ => done

def trackedMachine : Execution.Machine (FlowEngine × (UUID -> Finset StepId)) (World × FlowEvent) :=
  engineMachine.recording (fun _ => ∅) fun engine input done =>
    Function.update done input.2.flowId
      (noteCompletion input.1 (engine.state input.2.flowId) input.2 (done input.2.flowId))

/-- Every step of a non-empty DAG is done and idle, and the flow goes on. -/
def LeftOpen (st : FlowState) (done : Finset StepId) : Prop :=
  st.finalized = false ∧ ∃ valid, st.dag = some valid ∧ valid.dag.steps ≠ [] ∧
    ∀ sid ∈ valid.dag.ids, sid ∈ done ∧ sid ∉ st.queued ∧ sid ∉ st.running

instance LeftOpen.decidable (st : FlowState) (done : Finset StepId) : Decidable (LeftOpen st done) :=
  match held : st.dag with
  | none => isFalse (fun ⟨_, _, some_, _⟩ => nomatch held.symm.trans some_)
  | some valid =>
    decidable_of_iff
      (st.finalized = false ∧ valid.dag.steps ≠ [] ∧ ∀ sid ∈ valid.dag.ids,
        sid ∈ done ∧ sid ∉ st.queued ∧ sid ∉ st.running)
      ⟨fun ⟨live, rest⟩ => ⟨live, valid, held, rest⟩,
        fun ⟨live, _, some_, rest⟩ => ⟨live, Option.some.inj (held.symm.trans some_) ▸ rest⟩⟩

def NoneLeftOpen (current : FlowEngine × (UUID -> Finset StepId)) : Prop :=
  ∀ flowId, ¬ LeftOpen (current.1.state flowId) (current.2 flowId)

/-- All steps but the given one are done and idle in a flow that goes on. -/
def OthersDone (st : FlowState) (done : Finset StepId) (valid : ValidDAG) (sid : StepId) : Prop :=
  st.finalized = false ∧ st.dag = some valid ∧ valid.dag.steps ≠ [] ∧
    ∀ other ∈ valid.dag.ids, other ≠ sid ->
      other ∈ done ∧ other ∉ st.queued ∧ other ∉ st.running

/-- The completion of the last open step finds no foreign identifier in the
three step sets, the failure of the last busy step is one of an open step,
and an accepted mutation leaves no step, adds a step or keeps an open or busy
one. -/
def SeesTheEnd (st : FlowState) (done : Finset StepId) (event : FlowEvent) : Prop :=
  match event.eventType with
  | .stepCompleted => ∀ sid valid, event.payload.stepId = some sid ->
      OthersDone st done valid sid -> ∀ other,
        other ∈ st.completed ∨ other ∈ st.queued ∨ other ∈ st.running -> other ∈ valid.dag.ids
  | .stepFailed => ∀ sid valid, event.payload.stepId = some sid ->
      OthersDone st done valid sid -> sid ∉ done
  | .dagMutated => ∀ valid changed, st.dag = some valid -> st.finalized = false ->
      DAG.applyMutation world.frames valid.dag event.dagMutation = .ok changed ->
        (∀ sid ∈ valid.dag.ids, sid ∈ event.dagMutation.removed) ∨
          event.dagMutation.added ≠ [] ∨ ∃ sid ∈ valid.dag.ids, sid ∉ event.dagMutation.removed ∧
              (sid ∉ done ∨ sid ∈ st.queued ∨ sid ∈ st.running)
  | _ => True

/-! ## What one update does to an open end -/

variable {st : FlowState} {done : Finset StepId} {sid : StepId}

theorem othersDone_of_leftOpen_complete : LeftOpen (st.complete sid) (insert sid done) <->
      ∃ valid, OthersDone st done valid sid := by
  constructor
  · rintro ⟨live, valid, held, steps, every⟩
    refine ⟨valid, live, held, steps, ?_⟩
    intro other member different
    rcases every other member with ⟨finished, notQueued, notRunning⟩
    exact ⟨(Finset.mem_insert.mp finished).resolve_left different,
      fun queued => notQueued (Finset.mem_erase.mpr ⟨different, queued⟩),
      fun running => notRunning (Finset.mem_erase.mpr ⟨different, running⟩)⟩
  · rintro ⟨valid, live, held, steps, others⟩
    refine ⟨live, valid, held, steps, ?_⟩
    intro other member
    by_cases same : other = sid
    · subst same
      exact ⟨Finset.mem_insert_self _ _, Finset.notMem_erase _ _, Finset.notMem_erase _ _⟩
    · rcases others other member same with ⟨finished, notQueued, notRunning⟩
      exact ⟨Finset.mem_insert_of_mem finished,
        fun queued => notQueued (Finset.mem_of_mem_erase queued),
        fun running => notRunning (Finset.mem_of_mem_erase running)⟩

theorem leftOpen_fail (before : ¬ LeftOpen st done) : LeftOpen (st.fail sid) done <->
      ∃ valid, OthersDone st done valid sid ∧ sid ∈ done := by
  constructor
  · rintro ⟨live, valid, held, steps, every⟩
    have others : ∀ other ∈ valid.dag.ids, other ≠ sid ->
        other ∈ done ∧ other ∉ st.queued ∧ other ∉ st.running := by
      intro other member different
      rcases every other member with ⟨finished, notQueued, notRunning⟩
      exact ⟨finished, fun queued => notQueued (Finset.mem_erase.mpr ⟨different, queued⟩),
        fun running => notRunning (Finset.mem_erase.mpr ⟨different, running⟩)⟩
    refine ⟨valid, ⟨live, held, steps, others⟩, ?_⟩
    by_contra unfinished
    refine before ⟨live, valid, held, steps, ?_⟩
    intro other member
    have different : other ≠ sid := by
      intro same
      exact unfinished (same ▸ (every other member).1)
    exact others other member different
  · rintro ⟨valid, ⟨live, held, steps, others⟩, finished⟩
    refine ⟨live, valid, held, steps, ?_⟩
    intro other member
    by_cases same : other = sid
    · subst same
      exact ⟨finished, Finset.notMem_erase _ _, Finset.notMem_erase _ _⟩
    · rcases others other member same with ⟨finished, notQueued, notRunning⟩
      exact ⟨finished, fun queued => notQueued (Finset.mem_of_mem_erase queued),
        fun running => notRunning (Finset.mem_of_mem_erase running)⟩

theorem leftOpen_of_start (after : LeftOpen (st.start sid) done) : LeftOpen st done := by
  rcases after with ⟨live, valid, held, steps, every⟩
  refine ⟨live, valid, held, steps, ?_⟩
  intro other member
  rcases every other member with ⟨finished, notQueued, notRunning⟩
  have different : other ≠ sid := by
    intro same
    exact notRunning (same ▸ Finset.mem_insert_self _ _)
  exact ⟨finished, fun queued => notQueued (Finset.mem_erase.mpr ⟨different, queued⟩),
    fun running => notRunning (Finset.mem_insert_of_mem running)⟩

theorem leftOpen_of_requeue (after : LeftOpen (st.requeue sid) done) : LeftOpen st done := by
  rcases after with ⟨live, valid, held, steps, every⟩
  refine ⟨live, valid, held, steps, ?_⟩
  intro other member
  rcases every other member with ⟨finished, notQueued, notRunning⟩
  exact ⟨finished, fun queued => notQueued (Finset.mem_insert_of_mem queued), notRunning⟩

theorem leftOpen_mutate {frames : Nat}
    {mutation : DAGMutation} {valid changed : ValidDAG} (live : st.finalized = false)
    (applied : DAG.applyMutation frames valid.dag mutation = .ok changed) :
    LeftOpen (st.mutate mutation.removed.toFinset changed)
        ((done \ mutation.removed.toFinset) \ (mutation.added.filterMap StepDict.id).toFinset) <->
      (∃ sid ∈ valid.dag.ids, sid ∉ mutation.removed) ∧ mutation.added = [] ∧
        ∀ sid ∈ valid.dag.ids, sid ∉ mutation.removed ->
          sid ∈ done ∧ sid ∉ st.queued ∧ sid ∉ st.running := by
  have listed := DAG.applyMutation_ids applied
  have kept : ∀ sid ∈ valid.dag.ids, sid ∉ mutation.removed -> sid ∈ changed.dag.ids := by
    intro sid member stays
    rw [listed]
    exact List.mem_append_left _ (List.mem_filter.mpr ⟨member, decide_eq_true stays⟩)
  constructor
  · rintro ⟨_, _, same, steps, every⟩
    cases same
    have nothing : mutation.added = [] := by
      refine List.eq_nil_iff_forall_not_mem.mpr ?_
      intro entry member
      rcases DAG.applyMutation_added applied member with ⟨sid, _, added⟩
      have finished := (every sid (listed ▸ List.mem_append_right _ added)).1
      exact (Finset.mem_sdiff.mp finished).2 (List.mem_toFinset.mpr added)
    refine ⟨?_, nothing, ?_⟩
    · rcases List.exists_mem_of_ne_nil _ steps with ⟨s, member⟩
      have inside : s.id ∈ changed.dag.ids := List.mem_map_of_mem member
      rw [listed, nothing, List.filterMap_nil, List.append_nil] at inside
      exact ⟨s.id, (List.mem_filter.mp inside).1, of_decide_eq_true (List.mem_filter.mp inside).2⟩
    · intro sid member stays
      rcases every sid (kept sid member stays) with ⟨finished, notQueued, notRunning⟩
      have outside : sid ∉ mutation.removed.toFinset := fun gone => stays (List.mem_toFinset.mp gone)
      exact ⟨(Finset.mem_sdiff.mp (Finset.mem_sdiff.mp finished).1).1,
        fun queued => notQueued (Finset.mem_sdiff.mpr ⟨queued, outside⟩),
        fun running => notRunning (Finset.mem_sdiff.mpr ⟨running, outside⟩)⟩
  · rintro ⟨⟨some_, member, stays⟩, nothing, every⟩
    refine ⟨live, changed, rfl, ?_, ?_⟩
    · intro empty
      have inside := kept some_ member stays
      rw [DAG.ids, empty] at inside
      cases inside
    · intro sid inside
      rw [listed, nothing, List.filterMap_nil, List.append_nil] at inside
      have gone : sid ∉ mutation.removed := of_decide_eq_true (List.mem_filter.mp inside).2
      rcases every sid (List.mem_filter.mp inside).1 gone with ⟨finished, notQueued, notRunning⟩
      refine ⟨?_, fun queued => notQueued (Finset.mem_sdiff.mp queued).1,
        fun running => notRunning (Finset.mem_sdiff.mp running).1⟩
      rw [nothing, List.filterMap_nil, List.toFinset_nil, Finset.sdiff_empty]
      exact Finset.mem_sdiff.mpr ⟨finished, fun removed => gone (List.mem_toFinset.mp removed)⟩

theorem not_leftOpen_mutate {frames : Nat}
    {mutation : DAGMutation} {valid changed : ValidDAG} (live : st.finalized = false)
    (applied : DAG.applyMutation frames valid.dag mutation = .ok changed) :
    ¬ LeftOpen (st.mutate mutation.removed.toFinset changed)
        ((done \ mutation.removed.toFinset) \ (mutation.added.filterMap StepDict.id).toFinset) <->
      (∀ sid ∈ valid.dag.ids, sid ∈ mutation.removed) ∨ mutation.added ≠ [] ∨
        ∃ sid ∈ valid.dag.ids, sid ∉ mutation.removed ∧
          (sid ∉ done ∨ sid ∈ st.queued ∨ sid ∈ st.running) := by
  rw [leftOpen_mutate live applied]
  constructor
  · intro closed
    by_contra none_
    refine closed ⟨?_, ?_, ?_⟩
    · by_contra noneKept
      refine none_ (.inl fun sid member => ?_)
      by_contra stays
      exact noneKept ⟨sid, member, stays⟩
    · by_contra adds
      exact none_ (.inr (.inl adds))
    · intro sid member stays
      have quiet : ¬ (sid ∉ done ∨ sid ∈ st.queued ∨ sid ∈ st.running) :=
        fun open_ => none_ (.inr (.inr ⟨sid, member, stays, open_⟩))
      rcases not_or.mp quiet with ⟨finished, idle⟩
      exact ⟨not_not.mp finished, not_or.mp idle⟩
  · rintro goesOn ⟨⟨sid, member, stays⟩, nothing, every⟩
    rcases goesOn with all | adds | ⟨other, inside, left, open_⟩
    · exact stays (all sid member)
    · exact adds nothing
    · rcases every other inside left with ⟨finished, notQueued, notRunning⟩
      rcases open_ with unfinished | queued | running
      · exact unfinished finished
      · exact notQueued queued
      · exact notRunning running

variable (flowId : UUID)

theorem leftOpen_scheduleNext {entered : FlowState} (within : done ⊆ entered.completed) :
    LeftOpen (scheduleNext world flowId { state := entered }).state done <->
      LeftOpen entered done := by
  have unchanged : ∀ valid, entered.dag = some valid ->
      (∀ sid ∈ valid.dag.ids, sid ∈ done) ->
      (scheduleNext world flowId { state := entered }).state = entered := by
    intro valid held every
    have nothing : valid.dag.readySteps entered.completed = [] :=
      DAG.readySteps_eq_nil (fun s member => within (every s.id (List.mem_map_of_mem member)))
    simp only [scheduleNext, held, nothing, scheduleReady]
  constructor
  · rintro ⟨live, valid, held, steps, every⟩
    rcases (scheduleNext_spec world flowId entered).2 with ⟨marked, state, _⟩
    have before : entered.dag = some valid := by
      rw [state] at held
      exact held
    have same := unchanged valid before (fun sid member => (every sid member).1)
    rw [same] at live every
    exact ⟨live, valid, before, steps, every⟩
  · rintro ⟨live, valid, held, steps, every⟩
    rw [unchanged valid held (fun sid member => (every sid member).1)]
    exact ⟨live, valid, held, steps, every⟩

theorem scheduleNext_completed (entered : FlowState) :
    (scheduleNext world flowId { state := entered }).state.completed = entered.completed := by
  rcases (scheduleNext_spec world flowId entered).2 with ⟨marked, state, _⟩
  rw [state]
  rfl

theorem noteCompletion_subset (st : FlowState) (event : FlowEvent) (within : done ⊆ st.completed) :
    noteCompletion world st event done ⊆ (handle world st event).state.completed := by
  unfold noteCompletion handle
  cases kind : event.eventType with
  | dagProposed =>
    cases read : DAG.fromPayload world.frames (event.payload.steps.getD []) with
    | error failure => exact within
    | ok valid =>
      simp only [scheduleNext_completed]
      exact Finset.sdiff_subset.trans within
  | stepCompleted =>
    cases named : event.payload.stepId with
    | none =>
      simp only [withStepId, named]
      exact within
    | some sid =>
      have more : insert sid done ⊆ (st.complete sid).completed := Finset.insert_subset_insert sid within
      simp only [withStepId, named]
      split
      · exact more
      · rw [scheduleNext_completed]
        exact more
  | dagMutated =>
    cases held : st.dag with
    | none => exact within
    | some valid =>
      cases live : st.finalized with
      | true => exact within
      | false =>
        cases applied : DAG.applyMutation world.frames valid.dag event.dagMutation with
        | ok changed =>
          simp only [applied, Bool.false_eq_true, if_false, scheduleNext_completed]
          exact Finset.sdiff_subset.trans (Finset.sdiff_subset_sdiff within (Finset.Subset.refl _))
        | error failure =>
          simp only [applied, Bool.false_eq_true, if_false]
          cases failure <;> exact within
  | stepQueued | stepStarted | stepFailed =>
    cases named : event.payload.stepId <;> simp only [withStepId, named] <;> exact within
  | escalationRaised => cases live : st.finalized <;> exact within
  | _ => exact within

theorem allDone_iff : st.allDone = true <-> ∃ valid, st.dag = some valid ∧
      st.completed = valid.dag.ids.toFinset ∧ st.running = ∅ ∧ st.queued = ∅ := by
  unfold FlowState.allDone
  cases held : st.dag with
  | none =>
    constructor
    · intro impossible
      cases impossible
    · rintro ⟨valid, impossible, _⟩
      cases impossible
  | some valid =>
    simp only [Bool.and_eq_true, decide_eq_true_eq, Option.some.injEq, exists_eq_left']

theorem leftOpen_handle_completed (within : done ⊆ st.completed) (before : ¬ LeftOpen st done) :
    LeftOpen (if (st.complete sid).allDone && !(st.complete sid).finalized then
        Handling.publish world (flowCompletedEvent flowId (st.complete sid))
          { state := (st.complete sid).finalize }
      else scheduleNext world flowId { state := st.complete sid }).state (insert sid done) <->
      ∃ valid, OthersDone st done valid sid ∧ ∃ other,
        (other ∈ st.completed ∨ other ∈ st.queued ∨ other ∈ st.running) ∧ other ∉ valid.dag.ids := by
  by_cases closes : ((st.complete sid).allDone && !(st.complete sid).finalized) = true
  · rw [if_pos closes]
    rcases allDone_iff.mp (Bool.and_eq_true_iff.mp closes).1 with ⟨valid, held, all, running, queued⟩
    have known : sid ∈ valid.dag.ids :=
      List.mem_toFinset.mp (all ▸ Finset.mem_insert_self sid st.completed)
    refine iff_of_false (fun after => Bool.noConfusion after.1) ?_
    rintro ⟨other, ⟨_, same, _⟩, foreign, busy, outside⟩
    cases held.symm.trans same
    by_cases self : foreign = sid
    · exact outside (self ▸ known)
    · rcases busy with finished | waits | runs
      · exact outside (List.mem_toFinset.mp (all ▸ Finset.mem_insert_of_mem finished))
      · exact Finset.notMem_empty foreign (queued ▸ Finset.mem_erase.mpr ⟨self, waits⟩)
      · exact Finset.notMem_empty foreign (running ▸ Finset.mem_erase.mpr ⟨self, runs⟩)
  · rw [if_neg closes, leftOpen_scheduleNext world flowId (Finset.insert_subset_insert sid within),
      othersDone_of_leftOpen_complete]
    constructor
    · rintro ⟨valid, live, held, steps, others⟩
      refine ⟨valid, ⟨live, held, steps, others⟩, ?_⟩
      by_contra none_
      have inside : ∀ other, other ∈ st.completed ∨ other ∈ st.queued ∨ other ∈ st.running ->
          other ∈ valid.dag.ids := by
        intro other busy
        by_contra outside
        exact none_ ⟨other, busy, outside⟩
      -- A foreign identifier completing now would have found the flow open already.
      have known : sid ∈ valid.dag.ids := by
        by_contra foreign
        refine before ⟨live, valid, held, steps, fun other member => others other member ?_⟩
        exact fun same => foreign (same ▸ member)
      have all : (st.complete sid).completed = valid.dag.ids.toFinset := by
        refine Finset.Subset.antisymm ?_ ?_
        · intro other member
          rcases Finset.mem_insert.mp member with same | finished
          · exact List.mem_toFinset.mpr (same ▸ known)
          · exact List.mem_toFinset.mpr (inside other (.inl finished))
        · intro other member
          by_cases same : other = sid
          · exact Finset.mem_insert.mpr (.inl same)
          · exact Finset.mem_insert_of_mem
              (within (others other (List.mem_toFinset.mp member) same).1)
      have running : (st.complete sid).running = ∅ := by
        refine Finset.eq_empty_of_forall_notMem ?_
        intro other runs
        rcases Finset.mem_erase.mp runs with ⟨different, busy⟩
        exact (others other (inside other (.inr (.inr busy))) different).2.2 busy
      have queued : (st.complete sid).queued = ∅ := by
        refine Finset.eq_empty_of_forall_notMem ?_
        intro other waits
        rcases Finset.mem_erase.mp waits with ⟨different, busy⟩
        exact (others other (inside other (.inr (.inl busy))) different).2.1 busy
      have finished : (st.complete sid).allDone = true :=
        allDone_iff.mpr ⟨valid, held, all, running, queued⟩
      have open_ : (st.complete sid).finalized = false := live
      exact closes (by rw [finished, open_]; rfl)
    · rintro ⟨valid, others, _⟩
      exact ⟨valid, others⟩

theorem leftOpen_handle (st : FlowState) (event : FlowEvent)
    (within : done ⊆ st.completed) (before : ¬ LeftOpen st done) :
    ¬ LeftOpen (handle world st event).state (noteCompletion world st event done) <->
      SeesTheEnd world st done event := by
  unfold noteCompletion SeesTheEnd handle
  cases kind : event.eventType with
  | dagProposed =>
    refine iff_of_true ?_ trivial
    cases read : DAG.fromPayload world.frames (event.payload.steps.getD []) with
    | error failure => exact before
    | ok valid =>
      have smaller : done \ valid.dag.ids.toFinset ⊆
          ({ st with dag := some valid } : FlowState).completed :=
        Finset.sdiff_subset.trans within
      refine fun after => absurd ((leftOpen_scheduleNext world event.flowId smaller).mp after) ?_
      rintro ⟨_, _, same, steps, every⟩
      cases same
      rcases List.exists_mem_of_ne_nil _ steps with ⟨s, member⟩
      have inside : s.id ∈ valid.dag.ids := List.mem_map_of_mem member
      exact (Finset.mem_sdiff.mp (every s.id inside).1).2 (List.mem_toFinset.mpr inside)
  | stepCompleted =>
    cases named : event.payload.stepId with
    | none =>
      simp only [withStepId, named]
      exact iff_of_true before (fun sid valid impossible => by cases impossible)
    | some sid =>
      simp only [withStepId, named, leftOpen_handle_completed world event.flowId within before]
      constructor
      · intro closed other valid same others foreign busy
        cases same
        by_contra outside
        exact closed ⟨valid, others, foreign, busy, outside⟩
      · rintro known ⟨valid, others, foreign, busy, outside⟩
        exact outside (known sid valid rfl others foreign busy)
  | stepFailed =>
    cases named : event.payload.stepId with
    | none =>
      simp only [withStepId, named]
      exact iff_of_true before (fun sid valid impossible => by cases impossible)
    | some sid =>
      simp only [withStepId, named, leftOpen_fail before]
      constructor
      · intro closed other valid same others finished
        cases same
        exact closed ⟨valid, others, finished⟩
      · rintro open_ ⟨valid, others, finished⟩
        exact open_ sid valid rfl others finished
  | stepStarted =>
    refine iff_of_true ?_ trivial
    cases named : event.payload.stepId with
    | none =>
      simp only [withStepId, named]
      exact before
    | some sid =>
      simp only [withStepId, named]
      exact fun after => before (leftOpen_of_start after)
  | stepQueued =>
    refine iff_of_true ?_ trivial
    cases named : event.payload.stepId with
    | none =>
      simp only [withStepId, named]
      exact before
    | some sid =>
      simp only [withStepId, named]
      exact fun after => before (leftOpen_of_requeue after)
  | escalationRaised =>
    refine iff_of_true ?_ trivial
    cases live : st.finalized with
    | true => exact before
    | false =>
      rintro ⟨ended, _⟩
      cases ended
  | dagMutated =>
    cases held : st.dag with
    | none => exact iff_of_true before (fun valid changed impossible => by cases impossible)
    | some valid =>
      cases live : st.finalized with
      | true => exact iff_of_true before (fun _ _ _ impossible => by cases impossible)
      | false =>
        cases applied : DAG.applyMutation world.frames valid.dag event.dagMutation with
        | error failure =>
          simp only [applied, Bool.false_eq_true, if_false]
          refine iff_of_true ?_ ?_
          · cases failure <;> exact before
          · intro other changed same _ impossible
            cases same
            rw [applied] at impossible
            cases impossible
        | ok changed =>
          simp only [applied, Bool.false_eq_true, if_false]
          have smaller := Finset.sdiff_subset (t := (event.dagMutation.added.filterMap
            StepDict.id).toFinset).trans (Finset.sdiff_subset_sdiff within
              (Finset.Subset.refl event.dagMutation.removed.toFinset))
          have entered : (done \ event.dagMutation.removed.toFinset) \
              (event.dagMutation.added.filterMap StepDict.id).toFinset ⊆
              (st.mutate event.dagMutation.removed.toFinset changed).completed := smaller
          rw [leftOpen_scheduleNext world event.flowId entered, not_leftOpen_mutate live applied]
          constructor
          · intro goesOn other _ same _ _
            cases same
            exact goesOn
          · intro sees
            exact sees valid changed rfl trivial applied
  | _ => exact iff_of_true before trivial

/-- Over every run, no flow is left open after an event exactly when every
event sees the end of its flow. -/
theorem completion_run (inputs : List (World × FlowEvent)) :
    trackedMachine.EveryState NoneLeftOpen inputs <-> trackedMachine.EveryStep (fun current input =>
        SeesTheEnd input.1 (current.1.state input.2.flowId) (current.2 input.2.flowId) input.2)
        inputs := by
  refine trackedMachine.everyState_iff_everyStep
    (fun current => ∀ flowId, current.2 flowId ⊆ (current.1.state flowId).completed)
    ?_ ?_ ?_ ?_ inputs
  · rintro flowId ⟨_, valid, impossible, _⟩
    cases impossible
  · intro flowId
    exact Finset.empty_subset _
  · rintro ⟨engine, done⟩ input within flowId
    change Function.update done input.2.flowId _ flowId ⊆
      ((engine.handle input.1 input.2).state flowId).completed
    by_cases same : flowId = input.2.flowId
    · subst same
      rw [Function.update_self, FlowEngine.state_handle_same]
      exact noteCompletion_subset _ _ _ (within input.2.flowId)
    · rw [Function.update_of_ne same, FlowEngine.state_handle_other _ _ _ _ same]
      exact within flowId
  · rintro ⟨engine, done⟩ input within closed
    rw [← leftOpen_handle _ _ _ (within input.2.flowId) (closed input.2.flowId)]
    have here : Function.update done input.2.flowId (noteCompletion input.1
        (engine.state input.2.flowId) input.2 (done input.2.flowId)) input.2.flowId =
        noteCompletion input.1 (engine.state input.2.flowId) input.2 (done input.2.flowId) :=
      Function.update_self _ _ _
    constructor
    · intro after
      have atFlow := after input.2.flowId
      change ¬ LeftOpen ((engine.handle input.1 input.2).state input.2.flowId) _ at atFlow
      rw [FlowEngine.state_handle_same] at atFlow
      exact here ▸ atFlow
    · intro atFlow flowId
      change ¬ LeftOpen ((engine.handle input.1 input.2).state flowId)
        (Function.update done input.2.flowId _ flowId)
      by_cases same : flowId = input.2.flowId
      · subst same
        rw [Function.update_self, FlowEngine.state_handle_same]
        exact atFlow
      · rw [Function.update_of_ne same, FlowEngine.state_handle_other _ _ _ _ same]
        exact closed flowId

def removal (removed : List StepId) : World × FlowEvent :=
  ({}, { flowId := 1, eventType := .dagMutated, actor := .agent
         payload := { removed := some removed } })

/-- `fetch` completed and `parse` is taken out of the DAG: nothing is left to
do, and the flow is not ended. -/
theorem open_after_removal : ¬ ∀ inputs, trackedMachine.EveryState NoneLeftOpen inputs := by
  intro claimed
  let inputs := [proposal [independentStep "fetch", independentStep "parse"],
    stepEvent .stepCompleted "fetch", removal ["parse"]]
  have closed := claimed inputs inputs [] rfl 1
  exact closed (by decide)

end Flow
end BreadMind
