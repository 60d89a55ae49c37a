import BreadMind.Flow.Scheduling
import BreadMind.Flow.Validation

namespace BreadMind
namespace Flow

open Execution

/-!
# Mutations as they come in

The payload of a `DAG_MUTATED` event holds lists of arbitrary JSON values.  Any
value can stand where an identifier is expected: it is taken for one if it can be
hashed, and a `TypeError` is raised where it is hashed otherwise.  That is at
different places: in the table of the kept steps for a modified entry, and only
in the course of validation for an added one or for a dependency.

A step as it was read out of an entry is a `RawStep`; with all its identifiers
hashed it is a step.  What a value is as an identifier, what it is as a text and
how texts are read as numbers is left open.
-/

structure Reading where
  key : Json -> StepId
  text : Json -> String
  parseInt : String -> Option Int

abbrev Entry := List (String × Json)

structure RawMutation where
  added : List Entry := []
  removed : List Json := []
  modified : List Entry := []

/-- A step with identifiers of which some may not be hashable. -/
structure RawStep where
  id : Option StepId
  title : String
  tool : Json
  args : Json
  dependsOn : List (Option StepId)
  timeoutSeconds : Int
  maxAttempts : Int

def Step.raw (step : Step) : RawStep where
  id := some step.id
  title := step.title
  tool := step.tool
  args := step.args
  dependsOn := step.dependsOn.map some
  timeoutSeconds := step.timeoutSeconds
  maxAttempts := step.maxAttempts

def RawStep.hashed (step : RawStep) : Option Step := do
  let id ← step.id
  let dependsOn ← step.dependsOn.mapM fun dep => dep
  return { id, title := step.title, tool := step.tool, args := step.args, dependsOn,
           timeoutSeconds := step.timeoutSeconds, maxAttempts := step.maxAttempts }

namespace Reading

variable (reading : Reading)

def identity : Json -> Option StepId
  | .arr _ => none
  | .obj _ => none
  | value => some (reading.key value)

def step (entry : Entry) : Except PyError RawStep := do
  let id ← required "id" (entry.lookup "id")
  let title ← required "title" (entry.lookup "title")
  let args ← ((entry.lookup "args").getD (.obj [])).toDict
  let dependsOn ← ((entry.lookup "depends_on").getD (.arr [])).toItems
  let timeoutSeconds ← ((entry.lookup "timeout_seconds").getD (.int 300)).toInt reading.parseInt
  let maxAttempts ← ((entry.lookup "max_attempts").getD (.int 3)).toInt reading.parseInt
  return { id := reading.identity id, title := reading.text title,
           tool := (entry.lookup "tool").getD .null, args,
           dependsOn := dependsOn.map reading.identity, timeoutSeconds, maxAttempts }

def entryId (entry : Entry) : Option StepId :=
  (entry.lookup "id").bind reading.identity

def removedIds (mutation : RawMutation) : List StepId :=
  mutation.removed.filterMap reading.identity

end Reading

def unhashable : PyError := .typeError "unhashable type"

namespace DAG

variable (reading : Reading)

/-- `set(mutation.removed)`. -/
def hashAll (values : List Json) : Except PyError Unit :=
  forM values fun value =>
    if (reading.identity value).isSome then .ok ⟨⟩ else .error unhashable

def modifyRaw (kept : List Step) (steps : List RawStep) (entry : Entry) :
    Except PyError (List RawStep) := do
  let id ← required "id" (entry.lookup "id")
  match reading.identity id with
  | none => .error unhashable
  | some sid =>
    match indexById kept sid with
    | none => .error (.dagValidationError ("cannot modify missing step '" ++ sid ++ "'"))
    | some index => return steps.set index (← reading.step entry)

def collectRaw : List RawStep -> Finset StepId -> Except PyError (Finset StepId)
  | [], seen => .ok seen
  | s :: rest, seen =>
    match s.id with
    | none => .error unhashable
    | some sid =>
      if sid ∈ seen then .error (.dagValidationError ("duplicate step id: " ++ sid))
      else collectRaw rest (insert sid seen)

def checkDependency (seen : Finset StepId) (s : RawStep) : Option StepId -> Except PyError Unit
  | none => .error unhashable
  | some dep =>
    if dep ∈ seen then .ok ⟨⟩
    else .error (.dagValidationError
      ("step '" ++ s.id.getD "" ++ "' depends on missing '" ++ dep ++ "'"))

def checkRaw (seen : Finset StepId) (steps : List RawStep) : Except PyError Unit :=
  forM steps fun s => forM s.dependsOn (checkDependency seen s)

/-- `validate`; behind its first two loops all identifiers are hashable. -/
def validatedRaw (frames : Nat) (steps : List RawStep) : Except PyError ValidDAG := do
  let seen ← collectRaw steps ∅
  checkRaw seen steps
  validated frames ⟨steps.filterMap RawStep.hashed⟩

/-- The steps of the DAG which the mutation does not remove. -/
def kept (dag : DAG) (mutation : RawMutation) : List Step :=
  dag.steps.filter fun s => s.id ∉ reading.removedIds mutation

def applyRaw (frames : Nat) (dag : DAG) (mutation : RawMutation) : Except PyError ValidDAG := do
  hashAll reading mutation.removed
  let replaced ← mutation.modified.foldlM (modifyRaw reading (dag.kept reading mutation))
    ((dag.kept reading mutation).map Step.raw)
  let added ← mutation.added.mapM reading.step
  validatedRaw frames (replaced ++ added)

end DAG

variable (reading : Reading) (entry : Entry)

/-- The entry as the typed event in the log shows it. -/
def Reading.shownEntry : StepDict where
  id := reading.entryId entry
  title := (entry.lookup "title").map reading.text
  tool := entry.lookup "tool"
  args := entry.lookup "args"
  dependsOn := (entry.lookup "depends_on").bind fun value =>
    (value.toItems.toOption).map fun items => items.filterMap reading.identity
  timeoutSeconds := (entry.lookup "timeout_seconds").map (Json.toInt reading.parseInt)
  maxAttempts := (entry.lookup "max_attempts").map (Json.toInt reading.parseInt)

def Reading.shown (mutation : RawMutation) : MutationDict where
  added := some (mutation.added.map reading.shownEntry)
  removed := some (reading.removedIds mutation)
  modified := some (mutation.modified.map reading.shownEntry)

def mutationEvent (flowId : UUID) (mutation : RawMutation) : FlowEvent where
  flowId := flowId
  eventType := .dagMutated
  payload := { toMutationDict := reading.shown mutation }
  actor := .agent

variable (world : World) (st : FlowState)

def handleMutation (flowId : UUID) (mutation : RawMutation) : Handling :=
  match st.dag with
  | none => { state := st }
  | some valid =>
    if st.finalized then { state := st }
    else
      match valid.dag.applyRaw reading world.frames mutation with
      | .ok mutated =>
        scheduleNext world flowId
          { state := st.mutate (reading.removedIds mutation).toFinset mutated }
      | .error (.dagValidationError message) =>
        Handling.publish world (mutationRejectedEvent (mutationEvent reading flowId mutation)
          (.dagValidationError message)) { state := st }
      | .error failure => { state := st, raised := some failure }

/-! ## What the mutated steps are -/

namespace Reading

variable (reading : Reading)

def Readable (entry : Entry) : Prop :=
  ∃ new, reading.step entry = .ok new

def Names (kept : List Step) (entry : Entry) : Prop :=
  ∃ sid, reading.entryId entry = some sid ∧ sid ∈ kept.map Step.id

variable (modified : List Entry)

/-- The new definition of a step: the last entry for it. -/
def definition (sid : StepId) : Option Entry :=
  modified.reverse.find? fun entry => reading.entryId entry = some sid

/-- What stands in the place of a kept step. -/
def Replaces (old : Step) (new : RawStep) : Prop :=
  match reading.definition modified old.id with
  | none => new = old.raw
  | some entry => reading.step entry = .ok new

/-- The kept steps, with each modified one replaced in its place, and the added
ones behind them. -/
def Rewritten (dag : DAG) (mutation : RawMutation) (steps : List RawStep) : Prop :=
  (∀ entry ∈ mutation.modified, reading.Names (dag.kept reading mutation) entry) ∧
    ∃ replaced added, steps = replaced ++ added ∧
      List.Forall₂ (reading.Replaces mutation.modified) (dag.kept reading mutation) replaced ∧
      List.Forall₂ (fun entry new => reading.step entry = .ok new) mutation.added added

theorem definition_append (entry : Entry) (sid : StepId) :
    reading.definition (modified ++ [entry]) sid =
      if reading.entryId entry = some sid then some entry else reading.definition modified sid := by
  unfold definition
  rw [List.reverse_append, List.reverse_singleton, List.singleton_append, List.find?_cons]
  by_cases named : reading.entryId entry = some sid
  · rw [if_pos named, decide_eq_true named]
  · rw [if_neg named, decide_eq_false named]

variable {reading}

theorem Replaces.unique {modified : List Entry} {old : Step} {first second : RawStep}
    (once : reading.Replaces modified old first) (again : reading.Replaces modified old second) :
    first = second := by
  unfold Replaces at once again
  cases defined : reading.definition modified old.id with
  | none =>
    rw [defined] at once again
    exact once.trans again.symm
  | some entry =>
    rw [defined] at once again
    exact Except.ok.inj (once.symm.trans again)

theorem Rewritten.unique {dag : DAG} {mutation : RawMutation} {first second : List RawStep}
    (once : reading.Rewritten dag mutation first) (again : reading.Rewritten dag mutation second) :
    first = second := by
  rcases once with ⟨_, replaced, added, rfl, inPlace, behind⟩
  rcases again with ⟨_, others, more, rfl, otherPlace, otherBehind⟩
  have functional : Relator.RightUnique (reading.Replaces mutation.modified) :=
    fun _ _ _ first second => first.unique second
  have samePlaces : replaced = others := List.right_unique_forall₂' functional inPlace otherPlace
  have sameBehind : added = more := List.right_unique_forall₂'
    (fun _ _ _ first second => Except.ok.inj (first.symm.trans second)) behind otherBehind
  rw [samePlaces, sameBehind]

theorem replaced_set {done : List Entry} {kept : List Step} {steps : List RawStep}
    (distinct : (kept.map Step.id).Nodup)
    (replaces : List.Forall₂ (reading.Replaces done) kept steps) {entry : Entry} {sid : StepId}
    (named : reading.entryId entry = some sid) {new : RawStep} (read : reading.step entry = .ok new)
    {index : Nat} (found : (kept.map Step.id)[index]? = some sid) :
    List.Forall₂ (reading.Replaces (done ++ [entry])) kept (steps.set index new) := by
  have other : ∀ (old : Step) (present : RawStep), old.id ≠ sid ->
      reading.Replaces done old present -> reading.Replaces (done ++ [entry]) old present := by
    intro old present different held
    unfold Replaces
    rw [definition_append, named, if_neg fun same => different (Option.some.inj same).symm]
    exact held
  induction replaces generalizing index with
  | nil => cases found
  | @cons old present rest presents here later ih =>
    rw [List.map_cons, List.nodup_cons] at distinct
    cases index with
    | zero =>
      have same : old.id = sid := Option.some.inj found
      refine List.Forall₂.cons ?_ ?_
      · unfold Replaces
        rw [definition_append, named, if_pos (congrArg some same.symm)]
        exact read
      · have apart : ∀ further ∈ rest, further.id ≠ sid := by
          intro further member again
          exact distinct.1 (List.mem_map.mpr ⟨further, member, again.trans same.symm⟩)
        refine ((List.forall₂_and_left rest presents).mpr ⟨apart, later⟩).imp ?_
        exact fun further present both => other further present both.1 both.2
    | succ index =>
      refine List.Forall₂.cons ?_ (ih distinct.2 found)
      refine other old present (fun same => distinct.1 ?_) here
      exact same ▸ List.mem_of_getElem? found

end Reading

/-! ## What the loops raise -/

/-- The exceptions which the engine answers with a rejection. -/
def Refusal (failure : PyError) : Prop :=
  ∃ message, failure = .dagValidationError message

section Refusals

variable {reading : Reading} {kept : List Step}

theorem required_noRefusal {Value : Type} (key : String) (value : Option Value) :
    FailsOnly (fun failure => Not (Refusal failure)) (required key value) := by
  cases value with
  | none => exact failsOnly_error.mpr fun ⟨_, impossible⟩ => PyError.noConfusion impossible
  | some value => exact failsOnly_ok value

theorem toDict_noRefusal (value : Json) :
    FailsOnly (fun failure => Not (Refusal failure)) value.toDict := by
  have pairs : ∀ items : List Json,
      FailsOnly (fun failure => Not (Refusal failure)) (items.mapM Json.dictPair) := by
    intro items
    induction items with
    | nil => exact failsOnly_ok []
    | cons item rest ih =>
      rw [List.mapM_cons]
      refine failsOnly_bind.mpr ⟨?_, fun _ _ => failsOnly_bind.mpr ⟨ih, ?_⟩⟩
      · unfold Json.dictPair
        rintro failure raised ⟨message, rfl⟩
        split at raised <;> try split at raised
        all_goals cases raised
      · exact fun _ _ => failsOnly_ok _
  cases value with
  | arr items => exact failsOnly_bind.mpr ⟨pairs items, fun _ _ => failsOnly_ok _⟩
  | str text =>
    change FailsOnly _ (if text = "" then _ else _)
    split
    · exact failsOnly_ok _
    · exact failsOnly_error.mpr fun ⟨_, impossible⟩ => PyError.noConfusion impossible
  | obj fields => exact failsOnly_ok _
  | _ => exact failsOnly_error.mpr fun ⟨_, impossible⟩ => PyError.noConfusion impossible

theorem toItems_noRefusal (value : Json) :
    FailsOnly (fun failure => Not (Refusal failure)) value.toItems := by
  rintro failure raised ⟨message, rfl⟩
  cases value <;> cases raised

theorem toInt_noRefusal (parse : String -> Option Int) (value : Json) :
    FailsOnly (fun failure => Not (Refusal failure)) (value.toInt parse) := by
  rintro failure raised ⟨message, rfl⟩
  unfold Json.toInt at raised
  split at raised <;> try split at raised
  all_goals cases raised

theorem step_noRefusal (reading : Reading) (entry : Entry) :
    FailsOnly (fun failure => Not (Refusal failure)) (reading.step entry) := by
  unfold Reading.step
  refine failsOnly_bind.mpr ⟨required_noRefusal _ _, fun id _ => ?_⟩
  refine failsOnly_bind.mpr ⟨required_noRefusal _ _, fun title _ => ?_⟩
  refine failsOnly_bind.mpr ⟨toDict_noRefusal _, fun args _ => ?_⟩
  refine failsOnly_bind.mpr ⟨toItems_noRefusal _, fun dependsOn _ => ?_⟩
  refine failsOnly_bind.mpr ⟨toInt_noRefusal _ _, fun timeoutSeconds _ => ?_⟩
  refine failsOnly_bind.mpr ⟨toInt_noRefusal _ _, fun maxAttempts _ => ?_⟩
  exact failsOnly_ok _

theorem indexById_eq_none {sid : StepId} :
    DAG.indexById kept sid = none <-> sid ∉ kept.map Step.id := by
  induction kept with
  | nil => exact iff_of_true rfl (List.not_mem_nil)
  | cons head rest ih =>
    rw [DAG.indexById, List.map_cons, List.mem_cons, not_or]
    cases later : DAG.indexById rest sid with
    | some index =>
      rw [later] at ih
      refine iff_of_false (Option.some_ne_none _) fun absent => ?_
      exact Option.some_ne_none _ (ih.mpr absent.2)
    | none =>
      have absent := ih.mp later
      by_cases same : head.id = sid
      · exact iff_of_false (by rw [if_pos same]; exact Option.some_ne_none 0)
          fun other => other.1 same.symm
      · rw [if_neg same]
        exact iff_of_true rfl ⟨fun again => same again.symm, absent⟩

inductive Modified (reading : Reading) (kept : List Step) (steps : List RawStep) (entry : Entry) :
    Except PyError (List RawStep) -> Prop where
  | unnamed {failure : PyError} (nameless : reading.entryId entry = none)
      (other : Not (Refusal failure)) : Modified reading kept steps entry (.error failure)
  | missing {sid : StepId} {failure : PyError} (named : reading.entryId entry = some sid)
      (absent : sid ∉ kept.map Step.id) (refused : Refusal failure) :
      Modified reading kept steps entry (.error failure)
  | unreadable {sid : StepId} {failure : PyError} (named : reading.entryId entry = some sid)
      (present : sid ∈ kept.map Step.id) (read : reading.step entry = .error failure) :
      Modified reading kept steps entry (.error failure)
  | replaced {sid : StepId} {index : Nat} {new : RawStep}
      (named : reading.entryId entry = some sid)
      (found : (kept.map Step.id)[index]? = some sid) (read : reading.step entry = .ok new) :
      Modified reading kept steps entry (.ok (steps.set index new))

theorem modified_modifyRaw (reading : Reading) (kept : List Step) (steps : List RawStep)
    (entry : Entry) :
    Modified reading kept steps entry (DAG.modifyRaw reading kept steps entry) := by
  unfold DAG.modifyRaw
  cases given : entry.lookup "id" with
  | none =>
    refine .unnamed ?_ fun ⟨_, impossible⟩ => PyError.noConfusion impossible
    rw [Reading.entryId, given]
    rfl
  | some value =>
    change Modified reading kept steps entry (match reading.identity value with
      | none => _
      | some sid => _)
    have identified : reading.entryId entry = reading.identity value := by
      rw [Reading.entryId, given]
      rfl
    cases hashed : reading.identity value with
    | none =>
      exact .unnamed (identified.trans hashed)
        fun ⟨_, impossible⟩ => PyError.noConfusion impossible
    | some sid =>
      have named := identified.trans hashed
      cases found : DAG.indexById kept sid with
      | none =>
        simp only [found]
        exact .missing named (indexById_eq_none.mp found) ⟨_, rfl⟩
      | some index =>
        simp only [found]
        have place := DAG.indexById_get found
        cases read : reading.step entry with
        | error failure => exact .unreadable named (List.mem_of_getElem? place) read
        | ok new => exact .replaced named place read

theorem exists_modifyRaw_ok (steps : List RawStep) (entry : Entry) :
    (∃ next, DAG.modifyRaw reading kept steps entry = .ok next) <->
      reading.Names kept entry ∧ reading.Readable entry := by
  have outcome := modified_modifyRaw reading kept steps entry
  generalize DAG.modifyRaw reading kept steps entry = result at outcome ⊢
  cases outcome with
  | unnamed nameless other =>
    refine iff_of_false (by rintro ⟨_, ⟨⟩⟩) ?_
    rintro ⟨⟨sid, named, _⟩, _⟩
    exact Option.some_ne_none sid (named.symm.trans nameless)
  | missing named absent refused =>
    refine iff_of_false (by rintro ⟨_, ⟨⟩⟩) ?_
    rintro ⟨⟨other, otherNamed, present⟩, _⟩
    exact absent (Option.some.inj (otherNamed.symm.trans named) ▸ present)
  | unreadable named present read =>
    refine iff_of_false (by rintro ⟨_, ⟨⟩⟩) ?_
    rintro ⟨_, new, readable⟩
    cases read.symm.trans readable
  | replaced named found read =>
    exact iff_of_true ⟨_, rfl⟩ ⟨⟨_, named, List.mem_of_getElem? found⟩, _, read⟩

theorem failsOnly_modifyRaw (steps : List RawStep) (entry : Entry) :
    FailsOnly Refusal (DAG.modifyRaw reading kept steps entry) <->
      (reading.entryId entry).isSome ∧ (reading.Names kept entry -> reading.Readable entry) := by
  have outcome := modified_modifyRaw reading kept steps entry
  generalize DAG.modifyRaw reading kept steps entry = result at outcome ⊢
  cases outcome with
  | unnamed nameless other =>
    refine iff_of_false (fun fails => other (failsOnly_error.mp fails)) ?_
    rintro ⟨named, _⟩
    rw [nameless] at named
    cases named
  | missing named absent refused =>
    refine iff_of_true (failsOnly_error.mpr refused) ⟨Option.isSome_of_eq_some named, ?_⟩
    rintro ⟨other, otherNamed, present⟩
    exact (absent (Option.some.inj (otherNamed.symm.trans named) ▸ present)).elim
  | @unreadable sid failure named present read =>
    refine iff_of_false (fun fails => ?_) ?_
    · exact step_noRefusal reading entry failure read (failsOnly_error.mp fails)
    · rintro ⟨_, readable⟩
      rcases readable ⟨_, named, present⟩ with ⟨new, readsTo⟩
      cases read.symm.trans readsTo
  | replaced named found read =>
    exact iff_of_true (failsOnly_ok _) ⟨Option.isSome_of_eq_some named, fun _ => ⟨_, read⟩⟩

theorem modifyAll_ok (distinct : (kept.map Step.id).Nodup) {done entries : List Entry}
    {steps replaced : List RawStep} (before : List.Forall₂ (reading.Replaces done) kept steps)
    (ran : entries.foldlM (DAG.modifyRaw reading kept) steps = .ok replaced) :
    List.Forall₂ (reading.Replaces (done ++ entries)) kept replaced := by
  induction entries generalizing done steps with
  | nil =>
    cases ran
    rw [List.append_nil]
    exact before
  | cons entry rest ih =>
    rw [List.foldlM_cons] at ran
    rcases bind_eq_ok.mp ran with ⟨next, first, later⟩
    have outcome := modified_modifyRaw reading kept steps entry
    rw [first] at outcome
    cases outcome with
    | replaced named found read =>
      have after := Reading.replaced_set distinct before named read found
      rw [List.append_cons]
      exact ih after later

theorem replaces_raw (reading : Reading) (kept : List Step) :
    List.Forall₂ (reading.Replaces []) kept (kept.map Step.raw) := by
  induction kept with
  | nil => exact .nil
  | cons old rest ih => exact .cons rfl ih

end Refusals

/-! ## Validation of the mutated steps -/

/-- The dependency can be hashed and names one of the steps. -/
def Known (steps : List RawStep) (dep : Option StepId) : Prop :=
  dep ≠ none ∧ dep ∈ steps.map RawStep.id

/-- Before anything unhashable is reached there is a reason to refuse the steps,
and the search for cycles does not run out of frames. -/
structure Checkable (frames : Nat) (steps : List RawStep) : Prop where
  identifiers : ∀ before s after, steps = before ++ s :: after -> s.id = none ->
    Not (before.map RawStep.id).Nodup
  dependencies : (steps.map RawStep.id).Nodup -> none ∉ steps.map RawStep.id ->
    GoodUntil (fun s => ∀ dep ∈ s.dependsOn, Known steps dep)
      (fun s => GoodUntil (Known steps) (fun dep => dep ≠ none) s.dependsOn) steps
  shallow : ∀ dag : DAG, steps = dag.steps.map Step.raw -> Not (dag.Overflows frames)

theorem unhashable_noRefusal : Not (Refusal unhashable) :=
  fun ⟨_, impossible⟩ => PyError.noConfusion impossible

section Validating

variable {steps : List RawStep} {seen result : Finset StepId} {frames : Nat}

theorem exists_collectRaw_ok : (∃ result, DAG.collectRaw steps seen = .ok result) <->
      (steps.map RawStep.id).Nodup ∧ none ∉ steps.map RawStep.id ∧
        ∀ sid ∈ seen, some sid ∉ steps.map RawStep.id := by
  induction steps generalizing seen with
  | nil =>
    exact iff_of_true ⟨seen, rfl⟩
      ⟨List.nodup_nil, List.not_mem_nil, fun _ _ => List.not_mem_nil⟩
  | cons head rest ih =>
    rw [DAG.collectRaw, List.map_cons, List.nodup_cons, List.mem_cons]
    cases named : head.id with
    | none => exact iff_of_false (by rintro ⟨_, ⟨⟩⟩) fun all => all.2.1 (.inl rfl)
    | some sid =>
      by_cases again : sid ∈ seen
      · simp only [if_pos again]
        refine iff_of_false (by rintro ⟨_, ⟨⟩⟩) fun all => ?_
        exact all.2.2 sid again List.mem_cons_self
      · simp only [if_neg again]
        rw [ih]
        simp only [Finset.mem_insert, List.mem_cons, Option.some.injEq, forall_eq_or_imp]
        constructor
        · rintro ⟨distinct, hashable, fresh, others⟩
          refine ⟨⟨fresh, distinct⟩, fun bad => hashable (bad.resolve_left nofun), ?_⟩
          rintro other known (rfl | later)
          · exact again known
          · exact others other known later
        · rintro ⟨⟨fresh, distinct⟩, hashable, others⟩
          refine ⟨distinct, fun bad => hashable (.inr bad), fresh, ?_⟩
          exact fun other known later => others other known (.inr later)

theorem mem_collectRaw (collected : DAG.collectRaw steps seen = .ok result) (sid : StepId) :
    sid ∈ result <-> sid ∈ seen ∨ some sid ∈ steps.map RawStep.id := by
  induction steps generalizing seen with
  | nil =>
    cases collected
    exact (or_iff_left List.not_mem_nil).symm
  | cons head rest ih =>
    rw [DAG.collectRaw] at collected
    cases named : head.id with
    | none =>
      rw [named] at collected
      cases collected
    | some first =>
      simp only [named] at collected
      split at collected
      · cases collected
      · rw [ih collected, Finset.mem_insert, List.map_cons, List.mem_cons, named, Option.some.injEq]
        tauto

theorem failsOnly_collectRaw : FailsOnly Refusal (DAG.collectRaw steps seen) <->
      ∀ before s after, steps = before ++ s :: after -> s.id = none ->
        Not ((before.map RawStep.id).Nodup ∧ ∀ sid ∈ seen, some sid ∉ before.map RawStep.id) := by
  induction steps generalizing seen with
  | nil =>
    refine iff_of_true (failsOnly_ok seen) fun before s after split => ?_
    exact (List.append_ne_nil_of_right_ne_nil before (List.cons_ne_nil s after) split.symm).elim
  | cons head rest ih =>
    rw [DAG.collectRaw]
    cases named : head.id with
    | none =>
      refine iff_of_false (fun fails => ?_) fun every => ?_
      · exact unhashable_noRefusal (failsOnly_error.mp fails)
      · exact every [] head rest rfl named ⟨List.nodup_nil, fun _ _ => List.not_mem_nil⟩
    | some sid =>
      by_cases again : sid ∈ seen
      · simp only [if_pos again]
        refine iff_of_true (failsOnly_error.mpr ⟨_, rfl⟩) ?_
        rintro before s after split nameless ⟨_, unseen⟩
        cases before with
        | nil =>
          cases split
          exact Option.some_ne_none sid (named.symm.trans nameless)
        | cons first others =>
          rcases List.cons.inj split with ⟨rfl, _⟩
          exact unseen sid again (named ▸ List.mem_cons_self)
      · simp only [if_neg again]
        rw [ih]
        constructor
        · rintro every before s after split nameless ⟨distinct, unseen⟩
          cases before with
          | nil =>
            cases split
            exact Option.some_ne_none sid (named.symm.trans nameless)
          | cons first others =>
            rcases List.cons.inj split with ⟨rfl, same⟩
            rw [List.map_cons, List.nodup_cons, named] at distinct
            refine every others s after same nameless ⟨distinct.2, fun other known => ?_⟩
            rcases Finset.mem_insert.mp known with rfl | old
            · exact distinct.1
            · exact fun member => unseen other old (List.mem_cons_of_mem _ member)
        · rintro every before s after rfl nameless ⟨distinct, unseen⟩
          refine every (head :: before) s after rfl nameless ⟨?_, fun other known => ?_⟩
          · rw [List.map_cons, List.nodup_cons, named]
            exact ⟨unseen sid (Finset.mem_insert_self sid seen), distinct⟩
          · rw [List.map_cons, List.mem_cons, named, not_or]
            refine ⟨fun same => again ?_, unseen other (Finset.mem_insert_of_mem known)⟩
            exact Option.some.inj same ▸ known

theorem checkDependency_ok {s : RawStep} {dep : Option StepId}
    (members : ∀ sid, sid ∈ seen <-> some sid ∈ steps.map RawStep.id) :
    DAG.checkDependency seen s dep = .ok ⟨⟩ <-> Known steps dep := by
  cases dep with
  | none => exact iff_of_false (by rintro ⟨⟩) fun known => known.1 rfl
  | some dep =>
    change (if dep ∈ seen then _ else _) = _ <-> _ ∧ _
    rw [← members dep]
    by_cases known : dep ∈ seen
    · rw [if_pos known]
      exact iff_of_true rfl ⟨Option.some_ne_none dep, known⟩
    · rw [if_neg known]
      exact iff_of_false (by rintro ⟨⟩) fun both => known both.2

theorem failsOnly_checkDependency (s : RawStep) (dep : Option StepId) :
    FailsOnly Refusal (DAG.checkDependency seen s dep) <-> dep ≠ none := by
  cases dep with
  | none =>
    refine iff_of_false (fun fails => ?_) fun hashable => hashable rfl
    exact unhashable_noRefusal (failsOnly_error.mp fails)
  | some dep =>
    refine iff_of_true ?_ (Option.some_ne_none dep)
    change FailsOnly Refusal (if dep ∈ seen then _ else _)
    split
    · exact failsOnly_ok _
    · exact failsOnly_error.mpr ⟨_, rfl⟩

theorem checkRaw_ok (members : ∀ sid, sid ∈ seen <-> some sid ∈ steps.map RawStep.id) :
    DAG.checkRaw seen steps = .ok ⟨⟩ <-> ∀ s ∈ steps, ∀ dep ∈ s.dependsOn, Known steps dep := by
  unfold DAG.checkRaw
  rw [forM_eq_ok]
  refine forall₂_congr fun s _ => ?_
  rw [forM_eq_ok]
  exact forall₂_congr fun dep _ => checkDependency_ok members

theorem failsOnly_checkRaw (members : ∀ sid, sid ∈ seen <-> some sid ∈ steps.map RawStep.id) :
    FailsOnly Refusal (DAG.checkRaw seen steps) <->
      GoodUntil (fun s => ∀ dep ∈ s.dependsOn, Known steps dep)
        (fun s => GoodUntil (Known steps) (fun dep => dep ≠ none) s.dependsOn) steps := by
  unfold DAG.checkRaw
  rw [failsOnly_forM]
  refine GoodUntil.congr (fun s => ?_) (fun s => ?_) steps
  · rw [forM_eq_ok]
    exact forall₂_congr fun dep _ => checkDependency_ok members
  · rw [failsOnly_forM]
    exact GoodUntil.congr (fun _ => checkDependency_ok members) (failsOnly_checkDependency s) _

theorem exists_map_some {Value : Type} {values : List (Option Value)} (full : none ∉ values) :
    ∃ inner, values = List.map some inner := by
  induction values with
  | nil => exact ⟨[], rfl⟩
  | cons head rest ih =>
    rw [List.mem_cons, not_or] at full
    rcases Option.ne_none_iff_exists'.mp (Ne.symm full.1) with ⟨value, rfl⟩
    rcases ih full.2 with ⟨inner, rfl⟩
    exact ⟨value :: inner, rfl⟩

theorem exists_raw (named : none ∉ steps.map RawStep.id)
    (depends : ∀ s ∈ steps, none ∉ s.dependsOn) : ∃ hashed, steps = List.map Step.raw hashed := by
  induction steps with
  | nil => exact ⟨[], rfl⟩
  | cons head rest ih =>
    rw [List.map_cons, List.mem_cons, not_or] at named
    rw [List.forall_mem_cons] at depends
    rcases ih named.2 depends.2 with ⟨others, rfl⟩
    rcases Option.ne_none_iff_exists'.mp (Ne.symm named.1) with ⟨sid, identified⟩
    rcases exists_map_some depends.1 with ⟨dependsOn, same⟩
    refine ⟨⟨sid, head.title, head.tool, head.args, dependsOn, head.timeoutSeconds,
      head.maxAttempts⟩ :: others, ?_⟩
    rw [List.map_cons, Step.raw, ← identified, ← same]

theorem hashed_raw (step : Step) : step.raw.hashed = some step := by
  have each : (step.dependsOn.map some).mapM (fun dep : Option StepId => dep) =
      some step.dependsOn := by
    induction step.dependsOn with
    | nil => rfl
    | cons dep rest ih =>
      rw [List.map_cons, List.mapM_cons, ih]
      rfl
  unfold RawStep.hashed Step.raw
  rw [each]
  rfl

theorem filterMap_hashed (hashed : List Step) :
    (hashed.map Step.raw).filterMap RawStep.hashed = hashed := by
  have same : RawStep.hashed ∘ Step.raw = some := funext hashed_raw
  rw [List.filterMap_map, same, List.filterMap_some]

theorem failsOnly_validated (frames : Nat) (dag : DAG) :
    FailsOnly Refusal (DAG.validated frames dag) <-> Not (dag.Overflows frames) := by
  have outcome := DAG.verdict dag frames
  unfold DAG.validated
  split
  case h_1 checked =>
    rw [checked] at outcome
    cases outcome with
    | passed shallow well => exact iff_of_true (failsOnly_ok _) shallow
  case h_2 failure checked =>
    rw [checked] at outcome
    cases outcome with
    | overflowed deep =>
      refine iff_of_false (fun fails => ?_) fun shallow => shallow deep
      rcases failsOnly_error.mp fails with ⟨_, impossible⟩
      cases impossible
    | refused shallow ill => exact iff_of_true (failsOnly_error.mpr ⟨_, rfl⟩) shallow

theorem map_raw_id (steps : List Step) :
    (steps.map Step.raw).map RawStep.id = (steps.map Step.id).map some := by
  rw [List.map_map, List.map_map]
  rfl

theorem failsOnly_validatedRaw :
    FailsOnly Refusal (DAG.validatedRaw frames steps) <-> Checkable frames steps := by
  have first : FailsOnly Refusal (DAG.collectRaw steps ∅) <->
      ∀ before s after, steps = before ++ s :: after -> s.id = none ->
        Not (before.map RawStep.id).Nodup := by
    rw [failsOnly_collectRaw]
    simp only [Finset.notMem_empty, false_implies, implies_true, and_true]
  have passes : (∃ seen, DAG.collectRaw steps ∅ = .ok seen) <->
      (steps.map RawStep.id).Nodup ∧ none ∉ steps.map RawStep.id := by
    rw [exists_collectRaw_ok]
    simp only [Finset.notMem_empty, false_implies, implies_true, and_true]
  -- Frames can only run out for a DAG that gets past the first two loops.
  have collects : ∀ dag : DAG, steps = dag.steps.map Step.raw -> dag.ids.Nodup ->
      ∃ seen, DAG.collectRaw steps ∅ = .ok seen := by
    rintro dag rfl distinct
    refine passes.mpr ?_
    rw [map_raw_id]
    refine ⟨distinct.map (Option.some_injective _), fun unhashed => ?_⟩
    rcases List.mem_map.mp unhashed with ⟨_, _, ⟨⟩⟩
  unfold DAG.validatedRaw
  cases collected : DAG.collectRaw steps ∅ with
  | error failure =>
    rw [collected, failsOnly_error] at first
    have stuck : Not (∃ seen, DAG.collectRaw steps ∅ = .ok seen) := by
      rintro ⟨seen, passed⟩
      cases collected.symm.trans passed
    change FailsOnly Refusal (Except.error failure : Except PyError ValidDAG) <-> _
    rw [failsOnly_error, first]
    refine ⟨fun fails => ⟨fails, ?_, ?_⟩, Checkable.identifiers⟩
    · exact fun distinct hashable => (stuck (passes.mpr ⟨distinct, hashable⟩)).elim
    · exact fun dag same deep => stuck (collects dag same deep.1)
  | ok seen =>
    have hashable := passes.mp ⟨seen, collected⟩
    have members : ∀ sid, sid ∈ seen <-> some sid ∈ steps.map RawStep.id := by
      intro sid
      rw [mem_collectRaw collected sid, or_iff_right (Finset.notMem_empty sid)]
    rw [collected] at first
    have identifiers := first.mp (failsOnly_ok seen)
    have second := failsOnly_checkRaw members
    change FailsOnly Refusal (DAG.checkRaw seen steps >>= _) <-> _
    cases checked : DAG.checkRaw seen steps with
    | error failure =>
      rw [checked, failsOnly_error] at second
      change FailsOnly Refusal (Except.error failure : Except PyError ValidDAG) <-> _
      rw [failsOnly_error, second]
      refine ⟨fun fails => ⟨identifiers, fun _ _ => fails, ?_⟩, ?_⟩
      · rintro dag rfl ⟨_, closed, _⟩
        refine absurd ((checkRaw_ok members).mpr ?_) (by rw [checked]; rintro ⟨⟩)
        intro s member dep depends
        rcases List.mem_map.mp member with ⟨step, inSteps, rfl⟩
        rcases List.mem_map.mp depends with ⟨sid, lists, rfl⟩
        refine ⟨Option.some_ne_none sid, ?_⟩
        rw [map_raw_id]
        exact List.mem_map_of_mem (closed step inSteps sid lists)
      · exact fun checkable => checkable.dependencies hashable.1 hashable.2
    | ok _ =>
      have known := (checkRaw_ok members).mp checked
      rcases exists_raw hashable.2 fun s member unhashed => (known s member none unhashed).1 rfl with
        ⟨hashed, rfl⟩
      rw [checked] at second
      change FailsOnly Refusal
        (DAG.validated frames ⟨(hashed.map Step.raw).filterMap RawStep.hashed⟩) <-> _
      rw [filterMap_hashed, failsOnly_validated]
      constructor
      · refine fun shallow => ⟨identifiers, fun _ _ => second.mp (failsOnly_ok _), ?_⟩
        intro dag same
        have equal : hashed = dag.steps := by
          rw [← filterMap_hashed hashed, same, filterMap_hashed]
        rw [equal] at shallow
        exact shallow
      · exact fun checkable => checkable.shallow ⟨hashed⟩ rfl

theorem validatedRaw_ok {mutated : ValidDAG}
    (passed : DAG.validatedRaw frames steps = .ok mutated) :
    steps = mutated.dag.steps.map Step.raw ∧ mutated.dag.WellFormed := by
  rcases bind_eq_ok.mp passed with ⟨seen, collected, rest⟩
  rcases bind_eq_ok.mp rest with ⟨_, checked, valid⟩
  have hashable := exists_collectRaw_ok.mp ⟨seen, collected⟩
  have members : ∀ sid, sid ∈ seen <-> some sid ∈ steps.map RawStep.id := by
    intro sid
    rw [mem_collectRaw collected sid, or_iff_right (Finset.notMem_empty sid)]
  have known := (checkRaw_ok members).mp checked
  rcases exists_raw hashable.2.1 fun s member unhashed => (known s member none unhashed).1 rfl with
    ⟨hashed, rfl⟩
  rw [filterMap_hashed] at valid
  have same := DAG.validated_dag valid
  rw [same]
  exact ⟨rfl, DAG.wellFormed_of_validated valid⟩

end Validating

/-! ## Applying and handling a mutation -/

/-- Where something is wrong with the mutation, the first thing that is met is a
reason to refuse it. -/
structure Digestible (frames : Nat) (dag : DAG) (mutation : RawMutation) : Prop where
  removed : ∀ value ∈ mutation.removed, (reading.identity value).isSome
  modified : GoodUntil
    (fun entry => reading.Names (dag.kept reading mutation) entry ∧ reading.Readable entry)
    (fun entry => (reading.entryId entry).isSome ∧
      (reading.Names (dag.kept reading mutation) entry -> reading.Readable entry))
    mutation.modified
  added : (∀ entry ∈ mutation.modified,
      reading.Names (dag.kept reading mutation) entry ∧ reading.Readable entry) ->
    ∀ entry ∈ mutation.added, reading.Readable entry
  checkable : (∀ entry ∈ mutation.modified,
      reading.Names (dag.kept reading mutation) entry ∧ reading.Readable entry) ->
    ∀ steps, reading.Rewritten dag mutation steps -> Checkable frames steps

section Applying

variable {reading : Reading} {frames : Nat} {dag : DAG} {mutation : RawMutation}

theorem hashAll_ok (values : List Json) : DAG.hashAll reading values = .ok ⟨⟩ <->
      ∀ value ∈ values, (reading.identity value).isSome := by
  unfold DAG.hashAll
  rw [forM_eq_ok]
  refine forall₂_congr fun value _ => ?_
  split
  case isTrue hashable => exact iff_of_true rfl hashable
  case isFalse not => exact iff_of_false (by rintro ⟨⟩) not

theorem hashAll_error {values : List Json} {failure : PyError}
    (raised : DAG.hashAll reading values = .error failure) : Not (Refusal failure) := by
  rcases forM_eq_error raised with ⟨value, _, there⟩
  split at there
  · cases there
  · cases there
    exact unhashable_noRefusal

theorem kept_distinct (reading : Reading) (mutation : RawMutation) (distinct : dag.ids.Nodup) :
    ((dag.kept reading mutation).map Step.id).Nodup :=
  distinct.sublist (List.filter_sublist.map Step.id)

theorem rewritten (distinct : dag.ids.Nodup) {replaced added : List RawStep}
    (ran : mutation.modified.foldlM (DAG.modifyRaw reading (dag.kept reading mutation))
      ((dag.kept reading mutation).map Step.raw) = .ok replaced)
    (read : mutation.added.mapM reading.step = .ok added) :
    reading.Rewritten dag mutation (replaced ++ added) := by
  have passed := (exists_foldlM_ok exists_modifyRaw_ok _ _).mp ⟨replaced, ran⟩
  have inPlace := modifyAll_ok (kept_distinct reading mutation distinct)
    (replaces_raw reading (dag.kept reading mutation)) ran
  exact ⟨fun entry member => (passed entry member).1, replaced, added, rfl, inPlace,
    mapM_eq_ok_iff.mp read⟩

theorem applyRaw_ok (distinct : dag.ids.Nodup) {mutated : ValidDAG}
    (applied : dag.applyRaw reading frames mutation = .ok mutated) :
    mutated.dag.WellFormed ∧ reading.Rewritten dag mutation (mutated.dag.steps.map Step.raw) := by
  rcases bind_eq_ok.mp applied with ⟨_, _, rest⟩
  rcases bind_eq_ok.mp rest with ⟨replaced, ran, rest⟩
  rcases bind_eq_ok.mp rest with ⟨added, read, valid⟩
  rcases validatedRaw_ok valid with ⟨same, well⟩
  exact ⟨well, same ▸ rewritten distinct ran read⟩

theorem failsOnly_hashAll (values : List Json) :
    FailsOnly Refusal (DAG.hashAll reading values) <-> DAG.hashAll reading values = .ok ⟨⟩ := by
  cases hashed : DAG.hashAll reading values with
  | error failure =>
    refine iff_of_false (fun fails => ?_) (by rintro ⟨⟩)
    exact hashAll_error hashed (failsOnly_error.mp fails)
  | ok _ => exact iff_of_true (failsOnly_ok _) rfl

theorem failsOnly_readAll (entries : List Entry) : FailsOnly Refusal (entries.mapM reading.step) <->
      ∀ entry ∈ entries, reading.Readable entry :=
  failsOnly_mapM (step_noRefusal reading) entries

theorem failsOnly_applyRaw (distinct : dag.ids.Nodup) :
    FailsOnly Refusal (dag.applyRaw reading frames mutation) <->
      Digestible reading frames dag mutation := by
  have modifies := failsOnly_foldlM _ _
    (@exists_modifyRaw_ok reading (dag.kept reading mutation)) failsOnly_modifyRaw mutation.modified
    ((dag.kept reading mutation).map Step.raw)
  have allModified := exists_foldlM_ok (@exists_modifyRaw_ok reading (dag.kept reading mutation))
    mutation.modified ((dag.kept reading mutation).map Step.raw)
  unfold DAG.applyRaw
  rw [failsOnly_bind, failsOnly_hashAll, hashAll_ok]
  constructor
  · rintro ⟨removed, rest⟩
    rcases failsOnly_bind.mp (rest ⟨⟩ ((hashAll_ok _).mpr removed)) with ⟨modified, rest⟩
    refine ⟨removed, modifies.mp modified, fun every => ?_, fun every steps rewrites => ?_⟩
    · rcases allModified.mpr every with ⟨replaced, ran⟩
      exact (failsOnly_readAll _).mp (failsOnly_bind.mp (rest replaced ran)).1
    · rcases allModified.mpr every with ⟨replaced, ran⟩
      rcases failsOnly_bind.mp (rest replaced ran) with ⟨_, rest⟩
      rcases rewrites with ⟨names, others, added, rfl, inPlace, behind⟩
      have read := mapM_eq_ok_iff.mpr behind
      have same := Reading.Rewritten.unique ⟨names, others, added, rfl, inPlace, behind⟩
        (rewritten distinct ran read)
      rw [same]
      exact failsOnly_validatedRaw.mp (rest added read)
  · intro digestible
    refine ⟨digestible.removed, fun _ _ => failsOnly_bind.mpr ⟨modifies.mpr digestible.modified, ?_⟩⟩
    intro replaced ran
    have every := allModified.mp ⟨replaced, ran⟩
    refine failsOnly_bind.mpr ⟨(failsOnly_readAll _).mpr (digestible.added every), ?_⟩
    intro added read
    exact failsOnly_validatedRaw.mpr
      (digestible.checkable every _ (rewritten distinct ran read))

end Applying

/-- The engine goes on with a well-formed DAG that is the mutated one. -/
def Replaced (flowId : UUID) (dag : DAG) (mutation : RawMutation) (h : Handling) : Prop :=
  ∃ mutated : ValidDAG, mutated.dag.WellFormed ∧
    reading.Rewritten dag mutation (mutated.dag.steps.map Step.raw) ∧
    h.state.dag = some mutated ∧
    h = scheduleNext world flowId
      { state := st.mutate (reading.removedIds mutation).toFinset mutated }

/-- The rejection is published and the state is what it was. -/
def Rejected (event : FlowEvent) (h : Handling) : Prop :=
  ∃ failure, Refusal failure ∧
    h = Handling.publish world (mutationRejectedEvent event failure) { state := st } ∧
    h.state = st

theorem scheduleReady_quiet (flowId : UUID) (dag : DAG) (sids : List StepId)
    (h : Handling) (quiet : h.raised = none ∨ h.log ≠ []) :
    (scheduleReady world flowId dag sids h).raised = none ∨
      (scheduleReady world flowId dag sids h).log ≠ [] := by
  induction sids generalizing h with
  | nil => exact quiet
  | cons sid rest ih =>
    unfold scheduleReady
    split
    · exact quiet
    · split
      · exact ih h quiet
      · split
        · exact ih h quiet
        case h_2 step _ =>
          exact ih _
            (.inr (List.ne_nil_of_mem (launch_announces world flowId step h)))

section Handling

variable {reading : Reading} {world : World} {st : FlowState} {flowId : UUID} {dag : DAG}
  {mutation : RawMutation} {h : Handling}

theorem Replaced.quiet (replaced : Replaced reading world st flowId dag mutation h) :
    h.raised = none ∨ h.log ≠ [] := by
  rcases replaced with ⟨mutated, _, _, _, rfl⟩
  exact scheduleReady_quiet world flowId mutated.dag _ _ (.inl rfl)

theorem Rejected.log_ne_nil {event : FlowEvent} (rejected : Rejected world st event h) :
    h.log ≠ [] := by
  rcases rejected with ⟨failure, _, rfl, _⟩
  exact List.append_ne_nil_of_right_ne_nil [] (List.cons_ne_nil _ [])

theorem not_settled {failure : PyError} {event : FlowEvent} :
    Not (Replaced reading world st flowId dag mutation { state := st, raised := some failure } ∨
      Rejected world st event { state := st, raised := some failure }) := by
  rintro (replaced | rejected)
  · rcases replaced.quiet with quiet | called
    · cases quiet
    · exact called rfl
  · exact rejected.log_ne_nil rfl

theorem replaced_of_applied {valid mutated : ValidDAG}
    (applied : valid.dag.applyRaw reading world.frames mutation = .ok mutated) :
    Replaced reading world st flowId valid.dag mutation (scheduleNext world flowId
      { state := st.mutate (reading.removedIds mutation).toFinset mutated }) := by
  rcases applyRaw_ok valid.distinct applied with ⟨well, rewrites⟩
  rcases (scheduleNext_spec world flowId
    (st.mutate (reading.removedIds mutation).toFinset mutated)).2 with ⟨marked, state, _⟩
  refine ⟨mutated, well, rewrites, ?_, rfl⟩
  rw [state]
  rfl

/-- A running flow goes on with the mutated DAG or rejects the mutation, and there
is no third outcome, exactly when the mutation is digestible. -/
theorem handleMutation_exactly (reading : Reading) (world : World) (st : FlowState)
    (flowId : UUID) (mutation : RawMutation) (valid : ValidDAG) (held : st.dag = some valid)
    (live : st.finalized = false) : (Replaced reading world st flowId valid.dag mutation
        (handleMutation reading world st flowId mutation) ∨
      Rejected world st (mutationEvent reading flowId mutation)
        (handleMutation reading world st flowId mutation)) <->
      Digestible reading world.frames valid.dag mutation := by
  rw [← failsOnly_applyRaw valid.distinct]
  unfold handleMutation
  simp only [held, live, Bool.false_eq_true, if_false]
  cases applied : valid.dag.applyRaw reading world.frames mutation with
  | ok mutated => exact iff_of_true (.inl (replaced_of_applied applied)) (failsOnly_ok mutated)
  | error failure =>
    rw [failsOnly_error]
    cases failure with
    | dagValidationError message =>
      exact iff_of_true (.inr ⟨_, ⟨message, rfl⟩, rfl, rfl⟩) ⟨message, rfl⟩
    | _ => exact iff_of_false not_settled (by rintro ⟨_, ⟨⟩⟩)

end Handling

/-! ## Mutations with proper identifiers

When identifiers stand wherever they are expected, the event is handled as the
typed event that the log shows.
-/

structure Reading.Typed : Prop where
  id : ∀ value, entry.lookup "id" = some value -> ∃ sid,
    reading.identity value = some sid
  dependsOn : ∀ value, entry.lookup "depends_on" = some value -> ∃ items,
    value.toItems = .ok items ∧ none ∉ items.map reading.identity

section Typed

variable {reading : Reading}

theorem map_identity {items : List Json} (hashable : none ∉ items.map reading.identity) :
    items.map reading.identity = (items.filterMap reading.identity).map some := by
  rcases exists_map_some hashable with ⟨sids, same⟩
  have filtered : items.filterMap reading.identity = sids := by
    have := congrArg (List.filterMap fun sid => sid) same
    rw [List.filterMap_map, List.filterMap_map] at this
    exact this.trans List.filterMap_some
  rw [filtered, same]

theorem step_typed {entry : Entry} (typed : reading.Typed entry) : reading.step entry =
      (Step.fromMutation (reading.shownEntry entry)).map Step.raw := by
  have dependencies : ∃ items,
      ((entry.lookup "depends_on").getD (.arr [])).toItems = .ok items ∧
        items.map reading.identity =
          ((reading.shownEntry entry).dependsOn.getD []).map some := by
    unfold Reading.shownEntry
    cases given : entry.lookup "depends_on" with
    | none => exact ⟨[], rfl, rfl⟩
    | some value =>
      rcases typed.dependsOn value given with ⟨items, read, hashable⟩
      refine ⟨items, read, (map_identity hashable).trans ?_⟩
      simp only [Option.bind_some, read]
      rfl
  have timeout : (reading.shownEntry entry).timeoutSeconds.getD (.ok 300) =
      ((entry.lookup "timeout_seconds").getD (.int 300)).toInt reading.parseInt := by
    unfold Reading.shownEntry
    cases entry.lookup "timeout_seconds" <;> rfl
  have attempts : (reading.shownEntry entry).maxAttempts.getD (.ok 3) =
      ((entry.lookup "max_attempts").getD (.int 3)).toInt reading.parseInt := by
    unfold Reading.shownEntry
    cases entry.lookup "max_attempts" <;> rfl
  rcases dependencies with ⟨items, read, same⟩
  have identified : (reading.shownEntry entry).id = reading.entryId entry := rfl
  have titled : (reading.shownEntry entry).title = (entry.lookup "title").map reading.text := rfl
  have given : (reading.shownEntry entry).args = entry.lookup "args" := rfl
  have tool : (reading.shownEntry entry).tool = entry.lookup "tool" := rfl
  unfold Reading.step Step.fromMutation Step.read
  rw [timeout, attempts, read, identified, titled, given, tool, Reading.entryId]
  cases named : entry.lookup "id" with
  | none => rfl
  | some value =>
    rcases typed.id value named with ⟨sid, hashed⟩
    rw [Option.bind_some, hashed]
    cases entry.lookup "title" with
    | none => rfl
    | some title =>
      cases ((entry.lookup "args").getD (.obj [])).toDict with
      | error failure => rfl
      | ok args =>
        generalize ((entry.lookup "timeout_seconds").getD (.int 300)).toInt _ = seconds
        generalize ((entry.lookup "max_attempts").getD (.int 3)).toInt _ = rounds
        cases seconds with
        | error failure => rfl
        | ok seconds =>
          cases rounds with
          | error failure => rfl
          | ok rounds =>
            change Except.ok (RawStep.mk (reading.identity value) _ _ _
              (items.map reading.identity) _ _) = _
            rw [same, hashed]
            rfl

theorem foldlM_map {Failure State Image Item : Type} {round : State -> Item -> Except Failure State}
    {image : Image -> Item -> Except Failure Image} (into : State -> Image) (items : List Item)
    (agree : ∀ state item, item ∈ items -> image (into state) item = (round state item).map into)
    (start : State) : items.foldlM image (into start) = (items.foldlM round start).map into := by
  induction items generalizing start with
  | nil => rfl
  | cons item rest ih =>
    rw [List.foldlM_cons, List.foldlM_cons, agree start item List.mem_cons_self]
    cases round start item with
    | error failure => rfl
    | ok next =>
      exact ih (fun state other member =>
        agree state other (List.mem_cons_of_mem _ member)) next

theorem modifyRaw_typed {kept : List Step} {entry : Entry} (typed : reading.Typed entry)
    (steps : List Step) : DAG.modifyRaw reading kept (steps.map Step.raw) entry =
      (DAG.modifyStep kept steps (reading.shownEntry entry)).map (List.map Step.raw) := by
  unfold DAG.modifyRaw DAG.modifyStep
  rw [step_typed typed]
  have identified : (reading.shownEntry entry).id = reading.entryId entry := rfl
  rw [identified, Reading.entryId]
  cases named : entry.lookup "id" with
  | none => rfl
  | some value =>
    rcases typed.id value named with ⟨sid, hashed⟩
    rw [Option.bind_some]
    change (match reading.identity value with | none => _ | some sid => _) = _
    rw [hashed]
    change (match DAG.indexById kept sid with | none => _ | some index => _) =
      Except.map _ (match DAG.indexById kept sid with | none => _ | some index => _)
    cases DAG.indexById kept sid with
    | none => rfl
    | some index =>
      cases Step.fromMutation (reading.shownEntry entry) with
      | error failure => rfl
      | ok step => exact congrArg Except.ok List.map_set.symm

theorem mapM_typed {entries : List Entry} (typed : ∀ entry ∈ entries, reading.Typed entry) :
    entries.mapM reading.step =
      ((entries.map reading.shownEntry).mapM Step.fromMutation).map (List.map Step.raw) := by
  induction entries with
  | nil => rfl
  | cons entry rest ih =>
    rw [List.forall_mem_cons] at typed
    rw [List.map_cons, List.mapM_cons, List.mapM_cons, step_typed typed.1, ih typed.2]
    cases Step.fromMutation (reading.shownEntry entry) with
    | error failure => rfl
    | ok step =>
      cases (rest.map reading.shownEntry).mapM Step.fromMutation with
      | error failure => rfl
      | ok others => rfl

theorem collectRaw_raw (steps : List Step) (seen : Finset StepId) :
    DAG.collectRaw (steps.map Step.raw) seen = DAG.collectIds steps seen := by
  induction steps generalizing seen with
  | nil => rfl
  | cons step rest ih =>
    change (if step.id ∈ seen then _ else DAG.collectRaw (rest.map Step.raw) (insert step.id seen)) = _
    rw [ih]
    rfl

theorem checkRaw_raw (steps : List Step) (seen : Finset StepId) :
    DAG.checkRaw seen (steps.map Step.raw) = DAG.checkDependencies seen steps := by
  unfold DAG.checkRaw DAG.checkDependencies
  rw [List.forM_map]
  refine congrArg _ (funext fun s => ?_)
  exact List.forM_map ..

theorem validatedRaw_raw (frames : Nat) (steps : List Step) :
    DAG.validatedRaw frames (steps.map Step.raw) = DAG.validated frames ⟨steps⟩ := by
  unfold DAG.validatedRaw
  rw [filterMap_hashed, collectRaw_raw]
  have refuses : ∀ failure, DAG.validate frames ⟨steps⟩ = .error failure ->
      DAG.validated frames ⟨steps⟩ = .error failure := by
    intro failure refused
    unfold DAG.validated
    split
    case h_1 passed => cases refused.symm.trans passed
    case h_2 other again => exact congrArg _ (Except.error.inj (again.symm.trans refused))
  cases collected : DAG.collectIds steps ∅ with
  | error failure =>
    refine (refuses failure ?_).symm
    unfold DAG.validate
    rw [collected]
    rfl
  | ok seen =>
    change (DAG.checkRaw seen (steps.map Step.raw) >>= _) = _
    rw [checkRaw_raw]
    cases checked : DAG.checkDependencies seen steps with
    | error failure =>
      refine (refuses failure ?_).symm
      unfold DAG.validate
      rw [collected]
      change (DAG.checkDependencies seen steps >>= _) = _
      rw [checked]
      rfl
    | ok _ => rfl

theorem applyRaw_typed {mutation : RawMutation} (frames : Nat) (dag : DAG)
    (removed : ∀ value ∈ mutation.removed, (reading.identity value).isSome)
    (modified : ∀ entry ∈ mutation.modified, reading.Typed entry)
    (added : ∀ entry ∈ mutation.added, reading.Typed entry) : dag.applyRaw reading frames mutation =
      dag.applyMutation frames ⟨mutation.added.map reading.shownEntry,
        reading.removedIds mutation, mutation.modified.map reading.shownEntry⟩ := by
  unfold DAG.applyRaw DAG.applyMutation
  rw [(hashAll_ok _).mpr removed, mapM_typed added, foldlM_map (List.map Step.raw) mutation.modified
      fun steps entry member => modifyRaw_typed (modified entry member) steps]
  change Except.bind (Except.map _ _) _ = Except.bind (List.foldlM (DAG.modifyStep
    (dag.kept reading mutation)) (dag.kept reading mutation)
      (mutation.modified.map reading.shownEntry)) _
  rw [List.foldlM_map]
  cases mutation.modified.foldlM (fun steps entry =>
      DAG.modifyStep (dag.kept reading mutation) steps (reading.shownEntry entry))
      (dag.kept reading mutation) with
  | error failure => rfl
  | ok replaced =>
    cases (mutation.added.map reading.shownEntry).mapM Step.fromMutation with
    | error failure => rfl
    | ok added =>
      change DAG.validatedRaw frames (replaced.map Step.raw ++ added.map Step.raw) = _
      rw [← List.map_append, validatedRaw_raw]
      rfl

/-- On proper identifiers the event is handled as the log shows it. -/
theorem handleMutation_eq_handle {mutation : RawMutation} (world : World) (st : FlowState)
    (flowId : UUID) (removed : ∀ value ∈ mutation.removed, (reading.identity value).isSome)
    (modified : ∀ entry ∈ mutation.modified, reading.Typed entry)
    (added : ∀ entry ∈ mutation.added, reading.Typed entry) :
    handleMutation reading world st flowId mutation =
      handle world st (mutationEvent reading flowId mutation) := by
  unfold handleMutation
  simp only [applyRaw_typed world.frames _ removed modified added]
  rfl

end Typed

def plainReading : Reading where
  key := fun value => value.keyText.getD ""
  text := fun value => value.keyText.getD ""
  parseInt := fun _ => none

def fetchStep : Step := { id := "fetch", title := "Fetch", tool := .str "fetch", args := .obj [] }

def fetching : FlowState where
  dag := some ⟨⟨[fetchStep]⟩, by decide, by decide⟩

def storing : RawMutation where
  removed := [.str "fetch"]
  added := [[("id", .str "store"), ("title", .str "Store")]]

theorem handleMutation_eq_handle_storing : handleMutation plainReading {} fetching 0 storing =
    handle {} fetching (mutationEvent plainReading 0 storing) := by
  refine handleMutation_eq_handle {} fetching 0 (List.forall_mem_singleton.mpr rfl) nofun
    (List.forall_mem_singleton.mpr ⟨fun _ same => ?_, fun _ same => ?_⟩)
  · exact ⟨_, by cases same; rfl⟩
  · cases same

def parseStep : Step :=
  { id := "parse", title := "Parse", tool := .str "parse", args := .obj [], dependsOn := ["fetch"] }

def parsing : ValidDAG := ⟨⟨[fetchStep, parseStep]⟩, by decide, by decide⟩

/-- The second step goes, the first one gets another tool, and a third one needs it. -/
def reworking : RawMutation where
  removed := [.str "parse"]
  modified := [[("id", .str "fetch"), ("title", .str "Crawl"), ("tool", .str "crawl")]]
  added := [[("id", .str "store"), ("title", .str "Store"), ("depends_on", .arr [.str "fetch"])]]

theorem handleMutation_exactly_reworking :
    ((Replaced plainReading {} { dag := some parsing } 0 parsing.dag reworking
          (handleMutation plainReading {} { dag := some parsing } 0 reworking) ∨
        Rejected {} { dag := some parsing } (mutationEvent plainReading 0 reworking)
          (handleMutation plainReading {} { dag := some parsing } 0 reworking)) <->
      Digestible plainReading 1000 parsing.dag reworking) ∧
    (handleMutation plainReading {} { dag := some parsing } 0 reworking).state.dag.map
        (fun valid => valid.dag.steps.map fun s => (s.id, s.title, s.dependsOn)) =
      some [("fetch", "Crawl", []), ("store", "Store", ["fetch"])] :=
  ⟨handleMutation_exactly plainReading {} { dag := some parsing } 0 reworking parsing rfl rfl, rfl⟩

/-- An added entry that raises in the handler: the mutation is neither applied nor
rejected. -/
def Unsettled : Prop :=
  (∃ failure, handleMutation plainReading {} fetching 0 { added := [entry] } =
    { state := fetching, raised := some failure }) ∧
  Not (Replaced plainReading {} fetching 0 ⟨[fetchStep]⟩ { added := [entry] }
      (handleMutation plainReading {} fetching 0 { added := [entry] }) ∨
    Rejected {} fetching (mutationEvent plainReading 0 { added := [entry] })
      (handleMutation plainReading {} fetching 0 { added := [entry] }))

theorem unsettled_of_raised {entry : Entry} (failure : PyError)
    (outcome : handleMutation plainReading {} fetching 0 { added := [entry] } =
      { state := fetching, raised := some failure }) : Unsettled entry := by
  refine ⟨⟨failure, outcome⟩, ?_⟩
  rw [outcome]
  exact not_settled

/-- An added entry without an identifier, without a title or with a timeout that
is no number leaves the handler with an exception. -/
theorem malformed_addition_dropped :
    Unsettled [("title", .str "Store")] ∧ Unsettled [("id", .str "store")] ∧
      Unsettled [("id", .str "store"), ("title", .str "Store"), ("timeout_seconds", .str "soon")] := by
  refine ⟨?_, ?_, ?_⟩
  · exact unsettled_of_raised (.keyError "id") rfl
  · exact unsettled_of_raised (.keyError "title") rfl
  · exact unsettled_of_raised (.valueError "invalid literal for int() with base 10") rfl

end Flow
end BreadMind
