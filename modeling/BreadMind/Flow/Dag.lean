import BreadMind.Execution.Checks
import BreadMind.Flow.Events
import Mathlib.Data.Finset.Image

namespace BreadMind
namespace Flow

open Execution

/-!
# The DAG of a flow

Steps are read from payload entries, a DAG is checked before it is used, and
a mutation builds a new DAG which is checked again.  Cycle detection is a
depth-first search in three colours.  Its recursion is bounded by the frames
the interpreter has left; running out of them raises `RecursionError`, which
is not a validation error.

`ValidDAG` is a DAG together with what a successful check established.  The
two functions that produce one are `DAG.fromPayload` and `DAG.applyMutation`,
so whoever holds a `ValidDAG` has distinct step identifiers and closed
dependencies without a further proof.
-/

structure Step where
  id : StepId
  title : String
  tool : Json
  args : Json
  dependsOn : List StepId := []
  timeoutSeconds : Int := 300
  maxAttempts : Int := 3

structure DAGMutation where
  added : List StepDict := []
  removed : List StepId := []
  modified : List StepDict := []

structure DAG where
  steps : List Step

/-! ## Reading steps -/

/-- `entry[key]`: an absent key is a `KeyError`. -/
def required {Value : Type} (key : String) : Option Value -> Except PyError Value
  | some value => .ok value
  | none => .error (.keyError key)

/-- Build a step from a payload entry.  The two callers differ in how they
take the `args` value; keys are read in the order of the constructor call. -/
def Step.read (readArgs : Json -> Except PyError Json) (entry : StepDict) :
    Except PyError Step := do
  let id ← required "id" entry.id
  let title ← required "title" entry.title
  let args ← readArgs (entry.args.getD (.obj []))
  let timeoutSeconds ← entry.timeoutSeconds.getD (.ok 300)
  let maxAttempts ← entry.maxAttempts.getD (.ok 3)
  return { id, title, tool := entry.tool.getD .null, args, dependsOn := entry.dependsOn.getD [],
           timeoutSeconds, maxAttempts }

/-- A proposed step keeps its `args` value as it is. -/
def Step.fromProposal : StepDict -> Except PyError Step :=
  Step.read Except.ok

/-- A mutation copies the `args` value into a new dictionary. -/
def Step.fromMutation : StepDict -> Except PyError Step :=
  Step.read Json.toDict

theorem Step.read_id {readArgs : Json -> Except PyError Json} {entry : StepDict} {step : Step}
    (read : Step.read readArgs entry = .ok step) : entry.id = some step.id := by
  rcases bind_eq_ok.mp read with ⟨id, identified, rest⟩
  rcases bind_eq_ok.mp rest with ⟨title, _, rest⟩
  rcases bind_eq_ok.mp rest with ⟨args, _, rest⟩
  rcases bind_eq_ok.mp rest with ⟨timeoutSeconds, _, rest⟩
  rcases bind_eq_ok.mp rest with ⟨maxAttempts, _, built⟩
  cases built
  cases given : entry.id with
  | none =>
    rw [given] at identified
    cases identified
  | some sid =>
    rw [given] at identified
    cases identified
    rfl

theorem Step.read_ids {readArgs : Json -> Except PyError Json} {entries : List StepDict}
    {steps : List Step} (read : entries.mapM (Step.read readArgs) = .ok steps) :
    steps.map Step.id = entries.filterMap StepDict.id := by
  induction entries generalizing steps with
  | nil =>
    cases read
    rfl
  | cons entry rest ih =>
    rw [List.mapM_cons] at read
    rcases bind_eq_ok.mp read with ⟨step, first, later⟩
    rcases bind_eq_ok.mp later with ⟨others, remaining, built⟩
    cases built
    rw [List.map_cons, List.filterMap_cons_some (Step.read_id first), ih remaining]

namespace DAG

def ids (dag : DAG) : List StepId :=
  dag.steps.map Step.id

/-- The first loop of `validate`: collect the identifiers, refusing a repeated one. -/
def collectIds : List Step -> Finset StepId -> Except PyError (Finset StepId)
  | [], seen => .ok seen
  | s :: rest, seen =>
    if s.id ∈ seen then .error (.dagValidationError ("duplicate step id: " ++ s.id))
    else collectIds rest (insert s.id seen)

/-- The second loop of `validate`: every dependency names a collected identifier. -/
def checkDependencies (seen : Finset StepId) (steps : List Step) : Except PyError PUnit :=
  forM steps fun s => forM s.dependsOn fun dep =>
    if dep ∈ seen then .ok ⟨⟩
    else .error (.dagValidationError ("step '" ++ s.id ++ "' depends on missing '" ++ dep ++ "'"))

inductive Color where
  | white
  | gray
  | black
  deriving DecidableEq

/-- `{s.id: s for s in self.steps}`: the last step with the identifier. -/
def byId (dag : DAG) (node : StepId) : Option Step :=
  dag.steps.reverse.find? (fun s => s.id = node)

/-- The recursive `visit`.  Each call spends one interpreter frame. -/
def visit (dag : DAG) : Nat -> StepId -> (StepId -> Option Color) ->
    Except PyError (StepId -> Option Color)
  | 0, _, _ => .error (.recursionError "maximum recursion depth exceeded")
  | frames + 1, node, color => do
    let step ← required node (dag.byId node)
    let color ← step.dependsOn.foldlM (fun color dep =>
        match color dep with
        | none => .error (.keyError dep)
        | some .gray => .error (.dagValidationError ("cycle detected at step '" ++ dep ++ "'"))
        | some .white => visit dag frames dep color
        | some .black => .ok color)
      (Function.update color node (some .gray))
    return Function.update color node (some .black)

/-- The last loop of `validate`: start a search at every node still white. -/
def searchCycles (dag : DAG) (frames : Nat) : Except PyError (StepId -> Option Color) :=
  dag.steps.foldlM (fun color s =>
      if color s.id = some .white then visit dag frames s.id color else .ok color)
    (fun node => if node ∈ dag.ids then some .white else none)

def validate (frames : Nat) (dag : DAG) : Except PyError PUnit := do
  let seen ← collectIds dag.steps ∅
  checkDependencies seen dag.steps
  let _ ← dag.searchCycles frames
  return ⟨⟩

theorem collectIds_ok {steps : List Step} {seen result : Finset StepId}
    (collected : collectIds steps seen = .ok result) :
    (steps.map Step.id).Nodup ∧ (∀ s ∈ steps, s.id ∉ seen) ∧
      ∀ id, id ∈ result <-> id ∈ seen ∨ id ∈ steps.map Step.id := by
  induction steps generalizing seen with
  | nil =>
    cases collected
    exact ⟨List.nodup_nil, (fun s member => by cases member), fun id => by simp⟩
  | cons head tail ih =>
    by_cases repeated : head.id ∈ seen
    · rw [collectIds, if_pos repeated] at collected
      cases collected
    · rw [collectIds, if_neg repeated] at collected
      have ⟨distinct, unseen, members⟩ := ih collected
      have fresh : head.id ∉ tail.map Step.id := by
        intro later
        rcases List.mem_map.mp later with ⟨s, member, same⟩
        exact unseen s member (same ▸ Finset.mem_insert_self _ _)
      refine ⟨List.nodup_cons.mpr ⟨fresh, distinct⟩, ?_, ?_⟩
      · intro s member
        rcases List.mem_cons.mp member with same | later
        · exact same ▸ repeated
        · exact fun old => unseen s later (Finset.mem_insert_of_mem old)
      · intro id
        rw [members id, Finset.mem_insert, List.map_cons, List.mem_cons]
        tauto

theorem validate_ok {frames : Nat} {dag : DAG} (checked : dag.validate frames = .ok ⟨⟩) :
    dag.ids.Nodup ∧ ∀ s ∈ dag.steps, ∀ dep ∈ s.dependsOn, dep ∈ dag.ids := by
  rcases bind_eq_ok.mp checked with ⟨seen, collected, rest⟩
  rcases bind_eq_ok.mp rest with ⟨_, dependenciesOk, _⟩
  have ⟨distinct, _, members⟩ := collectIds_ok collected
  refine ⟨distinct, ?_⟩
  intro s stepMember dep depMember
  have perStep := (forM_eq_ok _ _).mp dependenciesOk s stepMember
  have perDep := (forM_eq_ok _ _).mp perStep dep depMember
  by_cases listed : dep ∈ seen
  · rcases (members dep).mp listed with impossible | member
    · exact False.elim (Finset.notMem_empty dep impossible)
    · exact member
  · rw [if_neg listed] at perDep
    cases perDep

end DAG

/-- A DAG which passed `validate`. -/
structure ValidDAG where
  dag : DAG
  distinct : dag.ids.Nodup
  closed : ∀ s ∈ dag.steps, ∀ dep ∈ s.dependsOn, dep ∈ dag.ids

namespace DAG

/-- `dag.validate()` followed by the use of `dag`. -/
def validated (frames : Nat) (dag : DAG) : Except PyError ValidDAG :=
  match checked : dag.validate frames with
  | .ok _ => .ok ⟨dag, (validate_ok checked).1, (validate_ok checked).2⟩
  | .error failure => .error failure

variable {frames : Nat} {dag : DAG}

theorem validated_dag {valid : ValidDAG}
    (checked : dag.validated frames = .ok valid) : valid.dag = dag := by
  unfold validated at checked
  split at checked
  · cases checked; rfl
  · cases checked

def fromPayload (frames : Nat) (data : List StepDict) : Except PyError ValidDAG := do
  let steps ← data.mapM Step.fromProposal
  validated frames ⟨steps⟩

/-- `{s.id: i for i, s in enumerate(steps)}`: the last index of an identifier. -/
def indexById : List Step -> StepId -> Option Nat
  | [], _ => none
  | s :: rest, sid =>
    match indexById rest sid with
    | some index => some (index + 1)
    | none => if s.id = sid then some 0 else none

/-- One round of the modify loop.  The index table was built from `kept`,
before any replacement. -/
def modifyStep (kept : List Step) (steps : List Step) (entry : StepDict) :
    Except PyError (List Step) := do
  let sid ← required "id" entry.id
  match indexById kept sid with
  | none => .error (.dagValidationError ("cannot modify missing step '" ++ sid ++ "'"))
  | some index => return steps.set index (← Step.fromMutation entry)

def applyMutation (frames : Nat) (dag : DAG) (mutation : DAGMutation) :
    Except PyError ValidDAG := do
  let kept := dag.steps.filter (fun s => s.id ∉ mutation.removed)
  let replaced ← mutation.modified.foldlM (modifyStep kept) kept
  let added ← mutation.added.mapM Step.fromMutation
  validated frames ⟨replaced ++ added⟩

theorem indexById_get {kept : List Step} {sid : StepId} {index : Nat}
    (found : indexById kept sid = some index) : (kept.map Step.id)[index]? = some sid := by
  induction kept generalizing index with
  | nil => cases found
  | cons head rest ih =>
    unfold indexById at found
    cases later : indexById rest sid with
    | some earlier =>
      rw [later] at found
      cases found
      exact ih later
    | none =>
      rw [later] at found
      by_cases same : head.id = sid
      · rw [if_pos same] at found
        cases found
        exact congrArg some same
      · rw [if_neg same] at found
        cases found

theorem modifyStep_ids {kept steps next : List Step} {entry : StepDict}
    (same : steps.map Step.id = kept.map Step.id)
    (modified : modifyStep kept steps entry = .ok next) : next.map Step.id = kept.map Step.id := by
  rcases bind_eq_ok.mp modified with ⟨sid, identified, rest⟩
  cases found : indexById kept sid with
  | none =>
    rw [found] at rest
    cases rest
  | some index =>
    rw [found] at rest
    rcases bind_eq_ok.mp rest with ⟨step, read, built⟩
    cases built
    have named : step.id = sid := by
      have given := Step.read_id read
      rw [given] at identified
      cases identified
      rfl
    rw [List.map_set, named, same]
    refine List.ext_getElem? ?_
    intro position
    by_cases here : index = position
    · subst here
      rw [List.getElem?_set_self', indexById_get found]
      rfl
    · rw [List.getElem?_set_ne here]

theorem applyMutation_ids {mutation : DAGMutation} {changed : ValidDAG}
    (applied : applyMutation frames dag mutation = .ok changed) :
    changed.dag.ids = dag.ids.filter (fun sid => sid ∉ mutation.removed) ++
      mutation.added.filterMap StepDict.id := by
  rcases bind_eq_ok.mp applied with ⟨replaced, modified, rest⟩
  rcases bind_eq_ok.mp rest with ⟨added, read, checked⟩
  have kept := foldlM_ok_invariant
    (fun steps => steps.map Step.id =
      (dag.steps.filter (fun s => s.id ∉ mutation.removed)).map Step.id)
    (fun steps entry next same round => modifyStep_ids same round) rfl modified
  rw [validated_dag checked, ids, List.map_append, kept, Step.read_ids read, ids, List.filter_map]
  rfl

theorem applyMutation_added {mutation : DAGMutation}
    {changed : ValidDAG} (applied : applyMutation frames dag mutation = .ok changed)
    {entry : StepDict} (member : entry ∈ mutation.added) :
    ∃ sid, entry.id = some sid ∧ sid ∈ mutation.added.filterMap StepDict.id := by
  rcases bind_eq_ok.mp applied with ⟨replaced, _, rest⟩
  rcases bind_eq_ok.mp rest with ⟨added, read, _⟩
  rcases mapM_eq_ok read entry member with ⟨step, stepRead⟩
  have named := Step.read_id stepRead
  exact ⟨step.id, named, List.mem_filterMap.mpr ⟨entry, member, named⟩⟩

def readySteps (dag : DAG) (completed : Finset StepId) : List StepId :=
  (dag.steps.filter fun s =>
    s.id ∉ completed ∧ ∀ dep ∈ s.dependsOn, dep ∈ completed).map Step.id

theorem mem_readySteps (dag : DAG) (completed : Finset StepId) (sid : StepId) :
    sid ∈ dag.readySteps completed <-> ∃ s ∈ dag.steps, s.id = sid ∧ sid ∉ completed ∧
        ∀ dep ∈ s.dependsOn, dep ∈ completed := by
  simp only [readySteps, List.mem_map, List.mem_filter, decide_eq_true_eq]
  constructor
  · rintro ⟨s, ⟨member, open_, met⟩, same⟩
    exact ⟨s, member, same, same ▸ open_, met⟩
  · rintro ⟨s, member, same, open_, met⟩
    exact ⟨s, ⟨member, same.symm ▸ open_, met⟩, same⟩

theorem readySteps_eq_nil {completed : Finset StepId}
    (done : ∀ s ∈ dag.steps, s.id ∈ completed) : dag.readySteps completed = [] := by
  apply List.eq_nil_iff_forall_not_mem.mpr
  intro sid ready
  rcases (mem_readySteps dag completed sid).mp ready with ⟨s, member, same, open_, _⟩
  exact open_ (same ▸ done s member)

end DAG

end Flow
end BreadMind
