import BreadMind.Flow.EventStore
import BreadMind.Flow.Scheduling

namespace BreadMind
namespace Flow

open Execution

/-!
# The projection beside the engine

Every event that was appended is handled by the engine.  Two folds go over
the same log: the store keeps the rows of the flow and of its steps, the
engine keeps the DAG.  They agree as long as no event is appended which the
store projects in another way than the engine reads it; the conditions below
say for each kind of event which those are, and they are exact.
-/

/-- The store and the engine, fed with the same events. -/
structure Projected where
  store : FlowStore
  engine : FlowEngine

structure Append where
  world : World
  event : StoreEvent
  now : Instant

namespace Projected

def step (current : Projected) (input : Append) : Projected :=
  match current.store.append input.event input.now with
  | .ok (_, store) => { store, engine := current.engine.handle input.world input.event.toFlowEvent }
  | .error _ => current

end Projected

def projectionMachine : Machine Projected Append where
  initial := { store := fun _ => {}, engine := { states := fun _ => none } }
  step := Projected.step

def Step.content (step : Step) : StepContent where
  stepId := step.id
  title := step.title
  tool := step.tool
  args := step.args
  dependsOn := step.dependsOn

def ValidDAG.contents (valid : ValidDAG) : List StepContent :=
  valid.dag.steps.map Step.content

def FlowState.contents (st : FlowState) : List StepContent :=
  match st.dag with
  | none => []
  | some valid => valid.contents

def FlowRecord.contents (record : FlowRecord) : List StepContent :=
  record.steps.map StepRow.toStepContent

/-- The first event of the flow created it. -/
def FlowRecord.Opened (record : FlowRecord) : Prop :=
  ∃ first, record.log.head? = some first ∧ first.eventType = .flowCreated

/-- The step rows are the steps of the DAG, and the flow row has the highest number. -/
structure Agrees (record : FlowRecord) (st : FlowState) : Prop where
  steps : record.contents.Perm st.contents
  lastSeq : ∃ flow, record.flow = some flow ∧ flow.lastEventSeq = record.maxSeq

/-- The rows of every flow that began with its creation agree with the engine. -/
def ProjectionAgrees (current : Projected) : Prop :=
  ∀ flowId, (current.store flowId).Opened ->
    Agrees (current.store flowId) (current.engine.state flowId)

def EventType.ofStep : EventType -> Bool
  | .stepQueued => true
  | .stepStarted => true
  | .stepProgress => true
  | .stepCompleted => true
  | .stepFailed => true
  | _ => false

/-- A late event of a step leaves the final status of its flow alone. -/
def KeepsTerminal (current : Projected) (input : Append) : Prop :=
  input.event.eventType.ofStep = true ->
    ∀ flow, (current.store input.event.flowId).flow = some flow -> flow.status.terminal = true ->
      ∃ later, ((current.step input).store input.event.flowId).flow = some later ∧
        later.status = flow.status

def Appends (current : Projected) (input : Append) : Prop :=
  ∃ appended, current.store.append input.event input.now = .ok appended

/-- The event changes the step rows just as it changes the DAG, and the flow
row gets its number. -/
def ChangesAlike (current : Projected) (input : Append) : Prop :=
  let record := current.store input.event.flowId
  let entries := input.event.payload.steps.getD []
  Appends current input -> record.Opened ->
    match input.event.eventType with
    | .flowCreated => False
    | .dagProposed =>
      match DAG.fromPayload input.world.frames entries with
      | .ok valid => ∀ row ∈ record.steps, row.toStepContent ∈ valid.contents
      | .error _ => ∀ entry ∈ entries,
          ∃ row ∈ record.steps, entry.id = some row.stepId
    | .dagMutated =>
      ∀ valid changed, (current.engine.state input.event.flowId).dag = some valid ->
        (current.engine.state input.event.flowId).finalized = false ->
          DAG.applyMutation input.world.frames valid.dag input.event.dagMutation = .ok changed ->
            changed.contents.Perm valid.contents
    | _ => True

/-- No step is started in a flow that is over. -/
def NotStartedLate (current : Projected) (input : Append) : Prop :=
  Appends current input -> input.event.eventType = .stepStarted ->
    ∀ flow, (current.store input.event.flowId).flow = some flow -> flow.status.terminal = false

variable (world : World)

def nextDag (st : FlowState) (event : FlowEvent) : Option ValidDAG :=
  match event.eventType with
  | .dagProposed =>
    match DAG.fromPayload world.frames (event.payload.steps.getD []) with
    | .ok valid => some valid
    | .error _ => st.dag
  | .dagMutated =>
    match st.dag with
    | none => none
    | some valid =>
      if st.finalized then some valid
      else
        match DAG.applyMutation world.frames valid.dag event.dagMutation with
        | .ok changed => some changed
        | .error _ => some valid
  | _ => st.dag

theorem scheduleNext_dag (flowId : UUID) (entered : FlowState) :
    (scheduleNext world flowId { state := entered }).state.dag = entered.dag := by
  rcases (scheduleNext_spec world flowId entered).2 with ⟨marked, state, _⟩
  rw [state]
  rfl

theorem withStepId_dag (event : FlowEvent) (st : FlowState) (branch : StepId -> Handling)
    (kept : ∀ sid, (branch sid).state.dag = st.dag) :
    (withStepId event st branch).state.dag = st.dag := by
  unfold withStepId
  cases event.payload.stepId with
  | none => rfl
  | some sid => exact kept sid

theorem handle_dag (st : FlowState) (event : FlowEvent) :
    (handle world st event).state.dag = nextDag world st event := by
  unfold handle nextDag
  cases event.eventType with
  | dagProposed =>
    dsimp only
    cases DAG.fromPayload world.frames (event.payload.steps.getD []) with
    | error failure => rfl
    | ok valid => exact scheduleNext_dag world event.flowId _
  | dagMutated =>
    dsimp only
    cases held : st.dag with
    | none => exact held
    | some valid =>
      dsimp only
      split
      · exact held
      · cases DAG.applyMutation world.frames valid.dag event.dagMutation with
        | ok changed => exact scheduleNext_dag world event.flowId _
        | error failure => cases failure <;> exact held
  | stepCompleted =>
    refine withStepId_dag event st _ ?_
    intro sid
    dsimp only
    split
    · rfl
    · exact scheduleNext_dag world event.flowId _
  | stepStarted | stepFailed | stepQueued => exact withStepId_dag event st _ fun _ => rfl
  | escalationRaised =>
    dsimp only
    split <;> rfl
  | _ => rfl

theorem contents_eq_of_dag {first second : FlowState} (same : first.dag = second.dag) :
    first.contents = second.contents := by
  unfold FlowState.contents
  rw [same]

/-! ## What the store makes of an event -/

def StepDict.content (entry : StepDict) : Option StepContent :=
  match entry.id, entry.title with
  | some stepId, some title =>
    some { stepId, title
           tool := entry.tool.getD .null
           args := entry.args.getD (.obj [])
           dependsOn := entry.dependsOn.getD [] }
  | _, _ => none

variable {entry : StepDict}

theorem StepDict.id_of_content {content : StepContent}
    (described : entry.content = some content) : entry.id = some content.stepId := by
  unfold StepDict.content at described
  split at described
  · rename_i identified _
    cases described
    exact identified
  · cases described

theorem required_eq_ok {Value : Type} {key : String} {value : Option Value} {result : Value} :
    required key value = .ok result <-> value = some result := by
  cases value with
  | none => exact iff_of_false nofun nofun
  | some held =>
    constructor
    · intro same
      exact congrArg some (Except.ok.inj same)
    · intro same
      exact congrArg Except.ok (Option.some_inj.mp same)

theorem content_of_fromProposal {step : Step}
    (read : Step.fromProposal entry = .ok step) : entry.content = some step.content := by
  rcases bind_eq_ok.mp read with ⟨id, identified, rest⟩
  rcases bind_eq_ok.mp rest with ⟨title, titled, rest⟩
  rcases bind_eq_ok.mp rest with ⟨args, given, rest⟩
  rcases bind_eq_ok.mp rest with ⟨timeoutSeconds, _, rest⟩
  rcases bind_eq_ok.mp rest with ⟨maxAttempts, _, built⟩
  cases built
  cases given
  unfold StepDict.content
  rw [required_eq_ok.mp identified, required_eq_ok.mp titled]
  rfl

theorem contents_of_fromPayload {frames : Nat} {entries : List StepDict} {valid : ValidDAG}
    (read : DAG.fromPayload frames entries = .ok valid) {content : StepContent} :
    content ∈ valid.contents <-> ∃ entry ∈ entries, entry.content = some content := by
  rcases bind_eq_ok.mp read with ⟨steps, readSteps, checked⟩
  unfold ValidDAG.contents
  rw [DAG.validated_dag checked]
  clear checked read valid
  induction entries generalizing steps with
  | nil =>
    cases readSteps
    exact iff_of_false List.not_mem_nil (by rintro ⟨entry, impossible, _⟩; cases impossible)
  | cons entry rest ih =>
    rw [List.mapM_cons] at readSteps
    rcases bind_eq_ok.mp readSteps with ⟨step, first, later⟩
    rcases bind_eq_ok.mp later with ⟨others, remaining, built⟩
    cases built
    rw [List.map_cons, List.mem_cons, ih others remaining]
    constructor
    · rintro (same | ⟨other, member, described⟩)
      · exact ⟨entry, List.mem_cons_self, same ▸ content_of_fromProposal first⟩
      · exact ⟨other, List.mem_cons_of_mem _ member, described⟩
    · rintro ⟨other, member, described⟩
      rcases List.mem_cons.mp member with same | further
      · subst same
        rw [content_of_fromProposal first] at described
        exact .inl (Option.some_inj.mp described).symm
      · exact .inr ⟨other, further, described⟩

/-- An entry is inserted unless its identifier is taken. -/
theorem insertStep_eq_ok {flowExists : Bool} {rows next : List StepRow}
    (inserted : insertStep flowExists rows entry = .ok next) :
    ∃ content, entry.content = some content ∧
      (content.stepId ∈ rows.map (fun row => row.stepId) ∧ next = rows ∨
        content.stepId ∉ rows.map (fun row => row.stepId) ∧
          ∃ row, row.toStepContent = content ∧ next = rows ++ [row]) := by
  rcases bind_eq_ok.mp inserted with ⟨stepId, identified, rest⟩
  rcases bind_eq_ok.mp rest with ⟨title, titled, rest⟩
  rcases bind_eq_ok.mp rest with ⟨tool, typed, rest⟩
  have untouched : tool = entry.tool.getD .null := by
    generalize entry.tool.getD .null = value at typed ⊢
    cases value <;> cases typed <;> rfl
  refine ⟨{ stepId, title, tool, args := entry.args.getD (.obj [])
            dependsOn := entry.dependsOn.getD [] }, ?_, ?_⟩
  · unfold StepDict.content
    rw [required_eq_ok.mp identified, required_eq_ok.mp titled, untouched]
  · split at rest
    · rename_i taken
      cases rest
      exact .inl ⟨taken, rfl⟩
    · rename_i free
      split at rest
      · cases rest
        exact .inr ⟨free, _, rfl, rfl⟩
      · cases rest

structure InsertsSteps (rows next : List StepRow) (entries : List StepDict) : Prop where
  kept : ∀ row ∈ rows, row ∈ next
  origin : ∀ row ∈ next, row ∈ rows ∨
    (row.stepId ∉ rows.map (fun row => row.stepId) ∧
      ∃ entry ∈ entries, entry.content = some row.toStepContent)
  covered : ∀ entry ∈ entries, ∃ row, row ∈ next ∧ entry.id = some row.stepId
  distinct : (rows.map fun row => row.stepId).Nodup -> (next.map fun row => row.stepId).Nodup

theorem insertsSteps {flowExists : Bool} {rows next : List StepRow} {entries : List StepDict}
    (inserted : entries.foldlM (insertStep flowExists) rows = .ok next) :
    InsertsSteps rows next entries := by
  induction entries generalizing rows with
  | nil =>
    cases inserted
    constructor
    · intro row member
      exact member
    · intro row member
      exact .inl member
    · intro entry member
      cases member
    · intro before
      exact before
  | cons entry rest ih =>
    rw [List.foldlM_cons] at inserted
    rcases bind_eq_ok.mp inserted with ⟨middle, first, later⟩
    have tail := ih later
    rcases insertStep_eq_ok first with ⟨content, described, ⟨taken, same⟩ | ⟨free, row, built, same⟩⟩
    · subst same
      refine ⟨tail.kept, ?_, ?_, tail.distinct⟩
      · intro other member
        rcases tail.origin other member with old | ⟨fresh, source, listed, content⟩
        · exact .inl old
        · exact .inr ⟨fresh, source, List.mem_cons_of_mem _ listed, content⟩
      · intro other member
        rcases List.mem_cons.mp member with here | further
        · rcases List.mem_map.mp taken with ⟨row, listed, identified⟩
          refine ⟨row, tail.kept row listed, ?_⟩
          rw [here, StepDict.id_of_content described, identified]
        · exact tail.covered other further
    · subst same
      have described' : entry.content = some row.toStepContent := built ▸ described
      rw [← built] at free
      refine ⟨fun other member => tail.kept other (List.mem_append_left _ member), ?_, ?_, ?_⟩
      · intro other member
        rcases tail.origin other member with old | ⟨fresh, source, listed, content⟩
        · rcases List.mem_append.mp old with older | new
          · exact .inl older
          · rw [List.mem_singleton.mp new]
            exact .inr ⟨free, entry, List.mem_cons_self, described'⟩
        · refine .inr ⟨?_, source, List.mem_cons_of_mem _ listed, content⟩
          intro old
          refine fresh ?_
          rw [List.map_append]
          exact List.mem_append_left _ old
      · intro other member
        rcases List.mem_cons.mp member with here | further
        · refine ⟨row, tail.kept row (List.mem_append_right _ List.mem_cons_self), ?_⟩
          rw [here, StepDict.id_of_content described']
        · exact tail.covered other further
      · intro before
        refine tail.distinct ?_
        rw [List.map_append, List.map_singleton]
        refine List.nodup_append.mpr ⟨before, List.nodup_singleton _, ?_⟩
        intro stepId old other new same
        rw [List.mem_singleton.mp new] at same
        exact free (same ▸ old)

/-- The flow row takes the number of the event; a step event changes its
status only by starting. -/
structure Touches (record after : FlowRecord) (event : StoredEvent) : Prop where
  log : after.log = record.log
  flow : ∃ change : FlowRow -> FlowRow, after.flow = record.flow.map change ∧
    ∀ flow, (change flow).lastEventSeq = event.seq ∧
      (event.eventType.ofStep = true ->
        (change flow).status = if event.eventType = .stepStarted then .running else flow.status)

inductive Projects (record : FlowRecord) (event : StoredEvent) : FlowRecord -> Prop where
  | created {row : FlowRow} (kind : event.eventType = .flowCreated) (free : record.flow = none)
      (number : row.lastEventSeq = event.seq) : Projects record event { record with flow := some row }
  | again {row : FlowRow} (kind : event.eventType = .flowCreated) (present : record.flow = some row) :
      Projects record event record
  | proposed {after : FlowRecord} (kind : event.eventType = .dagProposed)
      (inserts : InsertsSteps record.steps after.steps (event.payload.steps.getD []))
      (touches : Touches record after event) : Projects record event after
  | touched {after : FlowRecord} (uncreated : event.eventType ≠ .flowCreated)
      (unproposed : event.eventType ≠ .dagProposed) (same : after.contents = record.contents)
      (touches : Touches record after event) : Projects record event after

theorem contents_setStep (record : FlowRecord) (sid : StepId) {change : StepRow -> StepRow}
    (same : ∀ row, (change row).toStepContent = row.toStepContent) :
    (record.setStep sid change).contents = record.contents := by
  unfold FlowRecord.contents FlowRecord.setStep
  rw [List.map_map]
  refine List.map_congr_left ?_
  intro row _
  change (if row.stepId = sid then change row else row).toStepContent = row.toStepContent
  split
  · exact same row
  · rfl

variable {record : FlowRecord}

theorem projects {after : FlowRecord} {event : StoredEvent} {now : Instant}
    (projected : record.project event now = .ok after) : Projects record event after := by
  unfold FlowRecord.project at projected
  cases kind : event.eventType with
  | flowCreated =>
    rw [kind] at projected
    rcases bind_eq_ok.mp projected with ⟨title, _, rest⟩
    rcases bind_eq_ok.mp rest with ⟨userId, _, rest⟩
    cases present : record.flow with
    | none =>
      rw [present] at rest
      cases rest
      exact .created kind present rfl
    | some row =>
      rw [present] at rest
      cases rest
      exact .again kind present
  | dagProposed =>
    rw [kind] at projected
    rcases bind_eq_ok.mp projected with ⟨steps, inserted, built⟩
    cases built
    refine .proposed kind (insertsSteps inserted) ⟨rfl, _, rfl, fun flow => ⟨rfl, ?_⟩⟩
    rw [kind]
    exact nofun
  | stepQueued | stepStarted | stepCompleted | stepFailed =>
    rw [kind] at projected
    rcases bind_eq_ok.mp projected with ⟨sid, _, built⟩
    cases built
    refine .touched (kind ▸ nofun) (kind ▸ nofun) (contents_setStep record sid fun _ => rfl)
      ⟨rfl, _, rfl, fun flow => ⟨rfl, fun _ => ?_⟩⟩
    rw [kind]
    rfl
  | stepProgress =>
    rw [kind] at projected
    cases projected
    refine .touched (kind ▸ nofun) (kind ▸ nofun) rfl ⟨rfl, _, rfl, fun flow => ⟨rfl, fun _ => ?_⟩⟩
    rw [kind]
    rfl
  | _ =>
    rw [kind] at projected
    cases projected
    refine .touched (kind ▸ nofun) (kind ▸ nofun) rfl ⟨rfl, _, rfl, fun flow => ⟨rfl, ?_⟩⟩
    rw [kind]
    exact nofun

theorem nodup_of_ids {contents : List StepContent} (distinct : (contents.map StepContent.stepId).Nodup) :
    contents.Nodup :=
  List.Nodup.of_map _ distinct

theorem ids_contents (record : FlowRecord) :
    record.contents.map StepContent.stepId = record.steps.map fun row => row.stepId := by
  unfold FlowRecord.contents
  rw [List.map_map]
  rfl

theorem ValidDAG.ids_contents (valid : ValidDAG) :
    valid.contents.map StepContent.stepId = valid.dag.ids := by
  unfold ValidDAG.contents
  rw [List.map_map]
  rfl

theorem FlowState.nodup_contents (st : FlowState) : st.contents.Nodup := by
  unfold FlowState.contents
  cases st.dag with
  | none => exact List.nodup_nil
  | some valid =>
    refine nodup_of_ids ?_
    rw [valid.ids_contents]
    exact valid.distinct

structure FlowSound (record : FlowRecord) (st : FlowState) : Prop where
  distinct : (record.steps.map fun row => row.stepId).Nodup
  unknown : record.log = [] -> record.flow = none ∧ record.steps = [] ∧ st.dag = none

def ProjectionSound (current : Projected) : Prop :=
  ∀ flowId, FlowSound (current.store flowId) (current.engine.state flowId)

theorem perm_contents_iff {st : FlowState}
    (distinct : (record.steps.map fun row => row.stepId).Nodup) :
    record.contents.Perm st.contents <->
      ∀ content, content ∈ record.contents <-> content ∈ st.contents := by
  refine List.perm_ext_iff_of_nodup (nodup_of_ids ?_) st.nodup_contents
  rw [ids_contents]
  exact distinct

theorem Projects.distinct {after : FlowRecord} {event : StoredEvent}
    (does : Projects record event after) (before : (record.steps.map fun row => row.stepId).Nodup) :
    (after.steps.map fun row => row.stepId).Nodup := by
  cases does with
  | created kind free number => exact before
  | again kind present => exact before
  | proposed kind inserts touches => exact inserts.distinct before
  | touched uncreated unproposed same touches =>
    rw [← ids_contents, same, ids_contents]
    exact before

theorem Projects.log {record after : FlowRecord} {event : StoredEvent}
    (does : Projects record event after) : after.log = record.log := by
  cases does with
  | created kind free number => rfl
  | again kind present => rfl
  | proposed kind inserts touches => exact touches.log
  | touched uncreated unproposed same touches => exact touches.log

/-! ## One append of one flow -/

section OneFlow

variable {record projected : FlowRecord} {st next : FlowState} {stored : StoredEvent}

def FlowRecord.logged (record projected : FlowRecord) (stored : StoredEvent) : FlowRecord :=
  { projected with log := record.log ++ [stored] }

theorem Touches.agrees_iff (touches : Touches record projected stored)
    (numbered : stored.seq = record.maxSeq + 1) (agrees : Agrees record st) :
    Agrees (record.logged projected stored) next <-> projected.contents.Perm next.contents := by
  constructor
  · intro after
    exact after.steps
  · intro same
    refine ⟨same, ?_⟩
    rcases agrees.lastSeq with ⟨flow, present, _⟩
    rcases touches.flow with ⟨change, changed, effect⟩
    refine ⟨change flow, ?_, ?_⟩
    · rw [present] at changed
      exact changed
    · rw [@FlowRecord.maxSeq_appended record _ _ rfl numbered, (effect flow).1, numbered]

theorem not_agrees_again (numbered : stored.seq = record.maxSeq + 1) (agrees : Agrees record st) :
    ¬ Agrees (record.logged record stored) next := by
  intro after
  rcases agrees.lastSeq with ⟨flow, present, number⟩
  rcases after.lastSeq with ⟨later, same, higher⟩
  rw [@FlowRecord.maxSeq_appended record _ _ rfl numbered] at higher
  change record.flow = some later at same
  rw [present] at same
  cases same
  omega

theorem proposed_agrees_iff {frames : Nat} {entries : List StepDict} {valid : ValidDAG}
    (distinct : (projected.steps.map fun row => row.stepId).Nodup) (held : next.dag = some valid)
    (inserts : InsertsSteps record.steps projected.steps entries)
    (read : DAG.fromPayload frames entries = .ok valid) : projected.contents.Perm next.contents <->
      ∀ row ∈ record.steps, row.toStepContent ∈ valid.contents := by
  have listed : next.contents = valid.contents := by
    unfold FlowState.contents
    rw [held]
  rw [perm_contents_iff distinct, listed]
  constructor
  · intro same row member
    exact (same _).mp (List.mem_map_of_mem (inserts.kept row member))
  · intro kept
    have within : ∀ row ∈ projected.steps, row.toStepContent ∈ valid.contents := by
      intro row member
      rcases inserts.origin row member with old | ⟨_, entry, given, described⟩
      · exact kept row old
      · exact (contents_of_fromPayload read).mpr ⟨entry, given, described⟩
    intro content
    constructor
    · intro member
      rcases List.mem_map.mp member with ⟨row, stored, same⟩
      exact same ▸ within row stored
    · intro member
      rcases (contents_of_fromPayload read).mp member with ⟨entry, given, described⟩
      rcases inserts.covered entry given with ⟨row, stored, identified⟩
      -- The DAG lists the identifier once, so the row says the same of the step.
      have same : row.toStepContent = content := by
        have distinct : (valid.contents.map StepContent.stepId).Nodup := by
          rw [valid.ids_contents]
          exact valid.distinct
        refine List.inj_on_of_nodup_map distinct (within row stored) member ?_
        rw [StepDict.id_of_content described] at identified
        exact (Option.some_inj.mp identified).symm
      exact same ▸ List.mem_map_of_mem stored

theorem rejected_agrees_iff {entries : List StepDict}
    (distinct : (record.steps.map fun row => row.stepId).Nodup) (agrees : Agrees record st)
    (same : next.contents = st.contents)
    (inserts : InsertsSteps record.steps projected.steps entries) :
    projected.contents.Perm next.contents <->
      ∀ entry ∈ entries, ∃ row ∈ record.steps, entry.id = some row.stepId := by
  have old := (perm_contents_iff distinct).mp agrees.steps
  rw [perm_contents_iff (inserts.distinct distinct), same]
  constructor
  · intro equal entry given
    rcases inserts.covered entry given with ⟨row, stored, identified⟩
    have known := (old _).mpr ((equal _).mp (List.mem_map_of_mem stored))
    rcases List.mem_map.mp known with ⟨earlier, member, content⟩
    refine ⟨earlier, member, ?_⟩
    rw [identified, ← content]
  · intro known content
    rw [← old]
    constructor
    · intro member
      rcases List.mem_map.mp member with ⟨row, stored, here⟩
      rcases inserts.origin row stored with earlier | ⟨fresh, entry, given, described⟩
      · exact here ▸ List.mem_map_of_mem earlier
      · rcases known entry given with ⟨earlier, present, identified⟩
        rw [StepDict.id_of_content described] at identified
        refine absurd (List.mem_map.mpr ⟨earlier, present, ?_⟩) fresh
        exact (Option.some_inj.mp identified).symm
    · intro member
      rcases List.mem_map.mp member with ⟨row, stored, here⟩
      exact here ▸ List.mem_map_of_mem (inserts.kept row stored)

theorem mutated_agrees_iff {world : World} {mutation : DAGMutation} (agrees : Agrees record st)
    (dag : next.dag = match st.dag with
      | none => none
      | some valid =>
        if st.finalized then some valid
        else
          match DAG.applyMutation world.frames valid.dag mutation with
          | .ok changed => some changed
          | .error _ => some valid) :
    record.contents.Perm next.contents <->
      ∀ valid changed, st.dag = some valid -> st.finalized = false ->
        DAG.applyMutation world.frames valid.dag mutation = .ok changed ->
          changed.contents.Perm valid.contents := by
  have unchanged : next.dag = st.dag -> record.contents.Perm next.contents := by
    intro same
    rw [contents_eq_of_dag same]
    exact agrees.steps
  cases held : st.dag with
  | none =>
    rw [held] at dag
    exact iff_of_true (unchanged (dag.trans held.symm)) nofun
  | some valid =>
    have listed : st.contents = valid.contents := by
      unfold FlowState.contents
      rw [held]
    rw [held] at dag
    dsimp only at dag
    cases live : st.finalized with
    | true =>
      rw [live, if_pos rfl] at dag
      exact iff_of_true (unchanged (dag.trans held.symm)) nofun
    | false =>
      rw [live, if_neg Bool.false_ne_true] at dag
      cases applied : DAG.applyMutation world.frames valid.dag mutation with
      | error failure =>
        rw [applied] at dag
        refine iff_of_true (unchanged (dag.trans held.symm)) ?_
        rintro _ changed ⟨⟩ _ accepted
        rw [applied] at accepted
        cases accepted
      | ok changed =>
        rw [applied] at dag
        have after : next.contents = changed.contents := by
          unfold FlowState.contents
          rw [dag]
        rw [after]
        constructor
        · rintro same _ other ⟨⟩ _ accepted
          rw [applied] at accepted
          cases accepted
          exact same.symm.trans (listed ▸ agrees.steps)
        · intro same
          have steps := agrees.steps
          rw [listed] at steps
          exact steps.trans (same valid changed rfl rfl applied).symm

end OneFlow

variable {current : Projected} {input : Append} {stored : StoredEvent}

theorem agrees_append_iff {projected : FlowRecord}
    (here : current.store input.event.flowId = record)
    (numbered : stored.seq = record.maxSeq + 1) (event : stored.toStoreEvent = input.event)
    (does : Projects record stored projected)
    (distinct : (record.steps.map fun row => row.stepId).Nodup)
    (agrees : Agrees record (current.engine.state input.event.flowId)) (opened : record.Opened)
    (appends : Appends current input) : Agrees (record.logged projected stored)
        (handle input.world (current.engine.state input.event.flowId) input.event.toFlowEvent).state <->
      ChangesAlike current input := by
  have dag := handle_dag input.world (current.engine.state input.event.flowId) input.event.toFlowEvent
  generalize (handle input.world (current.engine.state input.event.flowId)
    input.event.toFlowEvent).state = next at dag ⊢
  unfold ChangesAlike
  dsimp only
  rw [here]
  refine Iff.trans ?_ (forall_prop_of_true appends).symm
  refine Iff.trans ?_ (forall_prop_of_true opened).symm
  unfold nextDag at dag
  have kind : stored.eventType = input.event.eventType :=
    congrArg (fun event => event.eventType) event
  cases does with
  | created made free number =>
    rcases agrees.lastSeq with ⟨flow, present, _⟩
    rw [free] at present
    cases present
  | again made present =>
    rw [← kind, made]
    exact iff_of_false (not_agrees_again numbered agrees) id
  | proposed made inserts touches =>
    rw [touches.agrees_iff numbered agrees]
    rw [← kind, made] at dag ⊢
    have same : stored.payload = input.event.payload := congrArg (fun event => event.payload) event
    rw [same] at inserts
    dsimp only at dag ⊢
    cases read : DAG.fromPayload input.world.frames (input.event.payload.steps.getD []) with
    | ok valid =>
      rw [read] at dag
      exact proposed_agrees_iff (inserts.distinct distinct) dag inserts read
    | error failure =>
      rw [read] at dag
      exact rejected_agrees_iff distinct agrees (contents_eq_of_dag dag) inserts
  | touched uncreated unproposed same touches =>
    rw [touches.agrees_iff numbered agrees, same]
    rw [kind] at uncreated unproposed
    cases shape : input.event.eventType with
    | flowCreated => exact absurd shape uncreated
    | dagProposed => exact absurd shape unproposed
    | dagMutated =>
      rw [shape] at dag
      dsimp only at dag ⊢
      exact mutated_agrees_iff agrees dag
    | _ =>
      rw [shape] at dag
      refine iff_of_true ?_ trivial
      rw [contents_eq_of_dag dag]
      exact agrees.steps

theorem step_of_appended
    {store : FlowStore} (appended : current.store.append input.event input.now = .ok (stored, store)) :
    ∃ projected, Projects (current.store input.event.flowId) stored projected ∧
        stored.toStoreEvent = input.event ∧
        stored.seq = (current.store input.event.flowId).maxSeq + 1 ∧
        (current.step input).store = Function.update current.store input.event.flowId
          ((current.store input.event.flowId).logged projected stored) ∧
        (current.step input).engine =
          current.engine.handle input.world input.event.toFlowEvent := by
  rcases FlowStore.append_eq_ok appended with ⟨record, one, rest⟩
  rcases FlowRecord.append_eq_ok one with ⟨built, projected, done, logged⟩
  unfold Projected.step
  rw [appended, rest, logged, built]
  exact ⟨projected, built ▸ projects done, rfl, rfl, rfl, rfl⟩

theorem step_of_refused {failure : PyError}
    (refused : current.store.append input.event input.now = .error failure) :
    current.step input = current := by
  unfold Projected.step
  rw [refused]

theorem FlowRecord.opened_logged {projected : FlowRecord} :
    (record.logged projected stored).Opened <->
      record.Opened ∨ (record.log = [] ∧ stored.eventType = .flowCreated) := by
  unfold FlowRecord.Opened FlowRecord.logged
  dsimp only
  cases record.log with
  | nil =>
    constructor
    · rintro ⟨first, ⟨⟩, kind⟩
      exact .inr ⟨rfl, kind⟩
    · rintro (⟨first, impossible, _⟩ | ⟨_, kind⟩)
      · cases impossible
      · exact ⟨stored, rfl, kind⟩
  | cons first rest =>
    constructor
    · rintro ⟨head, ⟨⟩, kind⟩
      exact .inl ⟨_, rfl, kind⟩
    · rintro (⟨head, ⟨⟩, kind⟩ | ⟨impossible, _⟩)
      · exact ⟨_, rfl, kind⟩
      · cases impossible

theorem projectionSound_step (current : Projected) (input : Append) (sound : ProjectionSound current) :
    ProjectionSound (current.step input) := by
  cases appended : current.store.append input.event input.now with
  | error failure =>
    rw [step_of_refused appended]
    exact sound
  | ok result =>
    rcases result with ⟨stored, store⟩
    rcases step_of_appended appended with ⟨projected, does, _, _, stores, handles⟩
    intro flowId
    rw [stores, handles]
    by_cases here : flowId = input.event.flowId
    · rw [here, Function.update_self]
      refine ⟨does.distinct (sound _).distinct, ?_⟩
      intro empty
      exact absurd empty (List.append_ne_nil_of_right_ne_nil _ (List.cons_ne_nil _ _))
    · rw [Function.update_of_ne here, FlowEngine.state_handle_other _ _ _ _ here]
      exact sound flowId

theorem projectionAgrees_step_iff (current : Projected) (input : Append)
    (sound : ProjectionSound current) (agrees : ProjectionAgrees current) :
    ProjectionAgrees (current.step input) <-> ChangesAlike current input := by
  cases appended : current.store.append input.event input.now with
  | error failure =>
    rw [step_of_refused appended]
    refine iff_of_true agrees ?_
    rintro ⟨result, made⟩
    rw [appended] at made
    cases made
  | ok result =>
    rcases result with ⟨stored, store⟩
    rcases step_of_appended appended with ⟨projected, does, event, numbered, stores, handles⟩
    have appends : Appends current input := ⟨_, appended⟩
    unfold ProjectionAgrees
    rw [stores, handles]
    constructor
    · intro every _ opened
      have after := every input.event.flowId
      rw [Function.update_self, FlowEngine.state_handle_same] at after
      exact (agrees_append_iff rfl numbered event does (sound _).distinct (agrees _ opened) opened
        appends).mp (after (FlowRecord.opened_logged.mpr (.inl opened))) appends opened
    · intro alike flowId opens
      by_cases here : flowId = input.event.flowId
      · rw [here, Function.update_self] at opens ⊢
        have same := FlowEngine.state_handle_same current.engine input.world input.event.toFlowEvent
        rw [same]
        rcases FlowRecord.opened_logged.mp opens with opened | ⟨empty, kind⟩
        · exact (agrees_append_iff rfl numbered event does (sound _).distinct (agrees _ opened) opened
            appends).mpr alike
        · have kindInput : input.event.eventType = .flowCreated := event ▸ kind
          rcases (sound input.event.flowId).unknown empty with ⟨noFlow, noSteps, noDag⟩
          cases does with
          | created made free number =>
            refine ⟨?_, _, rfl, ?_⟩
            · have none_ : (handle input.world (current.engine.state input.event.flowId)
                  input.event.toFlowEvent).state.contents = [] := by
                unfold FlowState.contents
                rw [handle_dag]
                unfold nextDag
                rw [kindInput, noDag]
              rw [none_]
              change ((current.store input.event.flowId).steps.map _).Perm []
              rw [noSteps]
              exact List.Perm.nil
            · rw [number, numbered]
              exact (FlowRecord.maxSeq_appended rfl numbered).symm
          | again made present =>
            rw [noFlow] at present
            cases present
          | proposed made inserts touches =>
            rw [kind] at made
            cases made
          | touched uncreated unproposed rows touches => exact absurd kind uncreated
      · rw [Function.update_of_ne here] at opens ⊢
        rw [FlowEngine.state_handle_other _ _ _ _ here]
        exact agrees flowId opens

theorem keepsTerminal_iff (current : Projected) (input : Append) :
    KeepsTerminal current input <-> NotStartedLate current input := by
  cases appended : current.store.append input.event input.now with
  | error failure =>
    refine iff_of_true ?_ ?_
    · intro _ flow present _
      rw [step_of_refused appended]
      exact ⟨flow, present, rfl⟩
    · rintro ⟨result, made⟩
      rw [appended] at made
      cases made
  | ok result =>
    rcases result with ⟨stored, store⟩
    rcases step_of_appended appended with ⟨projected, does, event, numbered, stores, _⟩
    have kind : stored.eventType = input.event.eventType :=
      congrArg (fun event => event.eventType) event
    have effect : input.event.eventType.ofStep = true ->
        ∀ flow, (current.store input.event.flowId).flow = some flow ->
          ∃ later, ((current.step input).store input.event.flowId).flow = some later ∧
            later.status = if input.event.eventType = .stepStarted then .running else flow.status := by
      intro ofStep flow present
      rw [stores, Function.update_self]
      rw [← kind] at ofStep ⊢
      cases does with
      | created made free number | again made other | proposed made inserts touches =>
        rw [made] at ofStep
        cases ofStep
      | touched uncreated unproposed same touches =>
        rcases touches.flow with ⟨change, changed, effect⟩
        rw [present] at changed
        exact ⟨change flow, changed, (effect flow).2 ofStep⟩
    constructor
    · intro keeps _ started flow present
      have ofStep : input.event.eventType.ofStep = true := by rw [started]; rfl
      rcases effect ofStep flow present with ⟨later, after, status⟩
      rw [if_pos started] at status
      cases closed : flow.status.terminal with
      | false => rfl
      | true =>
        rcases keeps ofStep flow present closed with ⟨same, afterSame, kept⟩
        rw [after] at afterSame
        cases afterSame
        rw [← kept, status] at closed
        cases closed
    · intro early ofStep flow present closed
      rcases effect ofStep flow present with ⟨later, after, status⟩
      refine ⟨later, after, ?_⟩
      rw [status]
      split
      · rename_i started
        rw [early ⟨_, appended⟩ started flow present] at closed
        cases closed
      · rfl

/-- The tables agree with the engine throughout a run, and final states stay,
exactly when every event changes both alike and no step starts late. -/
theorem projection_agrees_run (inputs : List Append) :
    (projectionMachine.EveryState ProjectionAgrees inputs ∧
        projectionMachine.EveryStep KeepsTerminal inputs) <->
      (projectionMachine.EveryStep ChangesAlike inputs ∧
        projectionMachine.EveryStep NotStartedLate inputs) := by
  refine and_congr ?_ ?_
  · refine projectionMachine.everyState_iff_everyStep ProjectionSound ?_ ?_ projectionSound_step
      projectionAgrees_step_iff inputs
    · rintro flowId ⟨first, impossible, _⟩
      cases impossible
    · intro flowId
      exact ⟨List.nodup_nil, fun _ => ⟨rfl, rfl, rfl⟩⟩
  · constructor
    · intro every
      exact every.mono _ fun current input => (keepsTerminal_iff current input).mp
    · intro every
      exact every.mono _ fun current input => (keepsTerminal_iff current input).mpr

def appendOf (input : World × FlowEvent) : Append where
  world := input.1
  event := { toFlowEvent := input.2, title := some "report", userId := some "ann" }
  now := 0

def creation : World × FlowEvent :=
  ({}, { flowId := 1, eventType := .flowCreated, actor := .user })

def completion : World × FlowEvent :=
  ({}, { flowId := 1, eventType := .flowCompleted, actor := .engine })

/-- The row of a removed step stays. -/
def removedStep : List Append :=
  [creation, proposal [independentStep "fetch", independentStep "parse"],
    ({}, { flowId := 1, eventType := .dagMutated, actor := .agent
           payload := { removed := some ["parse"] } })].map appendOf

def createdTwice : List Append :=
  [creation, creation].map appendOf

def startedLate : List Append :=
  [creation, completion, stepEvent .stepStarted "fetch"].map appendOf

theorem removed_step_projected : (¬ projectionMachine.EveryState ProjectionAgrees removedStep) ∧
      (¬ projectionMachine.EveryState ProjectionAgrees createdTwice) ∧
        ¬ projectionMachine.EveryStep KeepsTerminal startedLate := by
  refine ⟨?_, ?_, ?_⟩
  · intro every
    have agrees := every removedStep [] rfl 1 ⟨_, rfl, rfl⟩
    have lengths := agrees.steps.length_eq
    exact absurd lengths (by decide)
  · intro every
    rcases (every createdTwice [] rfl 1 ⟨_, rfl, rfl⟩).lastSeq with ⟨flow, present, number⟩
    cases present
    exact absurd number (by decide)
  · intro every
    rcases every (startedLate.take 2) (appendOf (stepEvent .stepStarted "fetch")) [] rfl rfl _ rfl rfl with
      ⟨later, present, same⟩
    cases present
    cases same

end Flow
end BreadMind
