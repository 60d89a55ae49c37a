import BreadMind.Base.Values
import BreadMind.Execution.Checks
import BreadMind.Execution.Logs
import BreadMind.Orchestration.Tasks

namespace BreadMind
namespace Orchestration

open Execution

/-!
# The executor of a plan

The nodes whose dependencies are completed run together, batch after batch,
until all are completed or failed.  Nodes that can never become ready are
skipped.

The runs of a batch overlap, so all of them are taken to start before the
first one ends.  They read the context of the plan, which changes only when the
batch is over.  A run that is cancelled leaves no result, and the executor fails
where it looks for its output.
-/

/-- A run of a node for the first time, again, or within a replacement of a node. -/
inductive Run where
  | first
  | retry
  | alternative (tid : String)
  deriving DecidableEq

/-- The plan that a run belongs to: a replacement, or the original plan. -/
def Run.scope : Run -> Option String
  | first => none
  | retry => none
  | alternative tid => some tid

inductive Writer where
  | own
  | alternative (tid : String)
  deriving DecidableEq

inductive Entry where
  | started (run : Run) (node : TaskNode)
  | ended (run : Run) (node : TaskNode) (result : Option SubAgentResult)
  | cancelled (run : Run) (node : TaskNode)
  | skipped (run : Run) (node : TaskNode)
  | replanned (tid : String) (alternative : TaskDAG)
  | wrote (id : String) (result : SubAgentResult) (writer : Writer)
  deriving DecidableEq

/-- How a subagent ends, with its exception or its result, and whether it takes
longer than the time limit. -/
structure Answer where
  finish : Except PyError SubAgentResult
  late : Bool

/-- The evaluator, the subagents, the order in which a set is gone through, and
the planner. -/
structure Orchestrator (World : Type) where
  evaluator : ResultEvaluator
  spawn : World -> TaskNode -> Dict String String -> Answer × World
  arrange : World -> List TaskNode -> List TaskNode
  arranged : ∀ world nodes, (arrange world nodes).Perm nodes
  askPlanner : World -> TaskDAG -> Dict String String -> String -> String -> PlannerReply × World

structure Progress (World : Type) where
  world : World
  context : Dict String String
  results : Dict String SubAgentResult
  completed : List String
  failed : List String
  log : List Entry

structure Stopped (World : Type) where
  error : PyError
  world : World
  log : List Entry

variable {World : Type}

def timeoutFor (difficulty : String) : Nat :=
  match difficulty with
  | "low" => 60
  | "medium" => 180
  | "high" => 600
  | _ => 180

def timedOut (node : TaskNode) : SubAgentResult where
  taskId := node.id
  success := false
  output := "[success=False] Tool execution timed out after " ++
    toString (timeoutFor node.difficulty) ++ "s."

def Answer.inTime (answer : Answer) (node : TaskNode) : Except PyError SubAgentResult :=
  if answer.late then .ok (timedOut node) else answer.finish

/-- The run has raised something that is no `Exception`. -/
def isCancelled : Except PyError SubAgentResult -> Bool
  | .ok _ => false
  | .error error => !error.isException

def noOutput : PyError := .attributeError "'CancelledError' object has no attribute 'output'"

def endEntry (run : Run) (ran : TaskNode × Except PyError SubAgentResult) : Entry :=
  if isCancelled ran.2 then .cancelled run ran.1 else .ended run ran.1 ran.2.toOption

variable (progress : Progress World)

def Progress.isSettled (node : TaskNode) : Bool :=
  progress.completed.contains node.id || progress.failed.contains node.id

/-- `all_ids - completed - failed`. -/
def Progress.unsettled (dag : TaskDAG) : List TaskNode :=
  dag.nodes.filter fun node => !progress.isSettled node

def Progress.isReady (node : TaskNode) : Bool :=
  node.dependsOn.all progress.completed.contains

def skippedResult (node : TaskNode) : SubAgentResult where
  taskId := node.id
  success := false
  output := "[success=False] Skipped: dependency failed"

def skipNode (run : Run) (progress : Progress World) (node : TaskNode) : Progress World :=
  { progress with
    results := progress.results.set node.id (skippedResult node)
    failed := progress.failed ++ [node.id]
    log := progress.log ++ [.skipped run node] }

namespace Orchestrator

variable (orchestrator : Orchestrator World)

def runNodes (context : Dict String String) :
    World -> List TaskNode -> List (TaskNode × Except PyError SubAgentResult) × World
  | world, [] => ([], world)
  | world, node :: rest =>
    let answered := orchestrator.spawn world node context
    let later := runNodes context answered.2 rest
    ((node, answered.1.inTime node) :: later.1, later.2)

/-- What becomes of a node whose run has ended. -/
def record (progress : Progress World) (ran : TaskNode × Except PyError SubAgentResult) :
    Progress World :=
  match ran.2 with
  | .error error =>
    { progress with
      results := progress.results.set ran.1.id
        { taskId := ran.1.id, success := false, output := "[success=False] Exception: " ++ error.text }
      failed := progress.failed ++ [ran.1.id] }
  | .ok result =>
    let recorded := { progress with results := progress.results.set ran.1.id result }
    if (orchestrator.evaluator.evaluate result.output ran.1.expectedOutput).status = .normal then
      { recorded with
        context := recorded.context.set ran.1.id result.output
        completed := recorded.completed ++ [ran.1.id] }
    else { recorded with failed := recorded.failed ++ [ran.1.id] }

def settle (progress : Progress World) (ran : TaskNode × Except PyError SubAgentResult) :
    Except PyError (Progress World) :=
  if isCancelled ran.2 then .error noOutput else .ok (orchestrator.record progress ran)

def begun (run : Run) (ready : List TaskNode) (progress : Progress World) : Progress World :=
  let ran := orchestrator.runNodes progress.context progress.world ready
  { progress with
    world := ran.2
    log := progress.log ++ (ready.map (Entry.started run) ++ ran.1.map (endEntry run)) }

def runBatch (run : Run) (ready : List TaskNode) (progress : Progress World) :
    Except (Stopped World) (Progress World) :=
  let begun := orchestrator.begun run ready progress
  let ran := orchestrator.runNodes progress.context progress.world ready
  (ran.1.foldlM orchestrator.settle begun).mapError fun error =>
    { error := error, world := begun.world, log := begun.log }

/-- The batches, up to so many of them. -/
def runRounds (run : Run) (dag : TaskDAG) :
    Nat -> Progress World -> Except (Stopped World) (Progress World)
  | 0, progress => .ok progress
  | rounds + 1, progress =>
    let waiting := orchestrator.arrange progress.world (progress.unsettled dag)
    if waiting.isEmpty then .ok progress
    else
      let ready := waiting.filter progress.isReady
      if ready.isEmpty then .ok (waiting.foldl (skipNode run) progress)
      else orchestrator.runBatch run ready progress >>= runRounds run dag rounds

def execute (run : Run) (dag : TaskDAG) (world : World) (log : List Entry) :
    Except (Stopped World) (Progress World) :=
  orchestrator.runRounds run dag dag.nodes.length
    { world := world, context := dag.context, results := [], completed := [], failed := [], log := log }

end Orchestrator

/-! ## What an executor has written -/

/-- A run of the node in this plan has put out what is judged normal. -/
def Passed (evaluator : ResultEvaluator) (log : List Entry) (scope : Option String) (id : String) :
    Prop :=
  ∃ run node result,
    Entry.ended run node (some result) ∈ log ∧ run.scope = scope ∧ node.id = id ∧
      evaluator.Accepts node result

theorem Passed.mono {evaluator : ResultEvaluator} {log later : List Entry} {scope : Option String}
    {id : String} (passed : Passed evaluator log scope id) (grown : log <+: later) :
    Passed evaluator later scope id := by
  rcases passed with ⟨run, node, result, ended, same⟩
  exact ⟨run, node, result, grown.subset ended, same⟩

/-- The entries are those of a run of the plan, and no node starts before its
dependencies have passed. -/
def InOrder (evaluator : ResultEvaluator) (run : Run) (dag : TaskDAG) (before : List Entry) :
    Entry -> Prop
  | .started other node => other = run ∧ node ∈ dag.nodes ∧
      ∀ dep ∈ node.dependsOn, Passed evaluator before run.scope dep
  | .ended other node _ => other = run ∧ node ∈ dag.nodes
  | .cancelled other node => other = run ∧ node ∈ dag.nodes
  | .skipped other node => other = run ∧ node ∈ dag.nodes
  | .replanned _ _ => False
  | .wrote _ _ _ => False

structure Carried (orchestrator : Orchestrator World) (run : Run) (dag : TaskDAG)
    (start : List Entry) (progress : Progress World) : Prop where
  written : ∃ more, progress.log = start ++ more ∧
    EachAfter (InOrder orchestrator.evaluator run dag) start more
  completed : ∀ id ∈ progress.completed,
    Passed orchestrator.evaluator progress.log run.scope id
  backed : ∀ id result, (id, result) ∈ progress.results -> ∃ node ∈ dag.nodes, node.id = id ∧
      (result.success = true -> Entry.ended run node (some result) ∈ progress.log)
  settled : ∀ node ∈ dag.nodes, progress.isSettled node = true ->
    (∃ result, progress.results.lookup node.id = some result) ∧
      Entry.started run node ∈ progress.log
  skips : ∀ node, Entry.skipped run node ∈ progress.log -> Entry.skipped run node ∈ start
  keys : progress.results.keys.Nodup

structure Tabled (orchestrator : Orchestrator World) (run : Run) (dag : TaskDAG)
    (start : List Entry) (progress : Progress World) : Prop where
  written : ∃ more, progress.log = start ++ more ∧
    EachAfter (InOrder orchestrator.evaluator run dag) start more
  backed : ∀ id result, (id, result) ∈ progress.results -> ∃ node ∈ dag.nodes, node.id = id ∧
      (result.success = true -> Entry.ended run node (some result) ∈ progress.log)
  skipped : ∀ node, Entry.skipped run node ∈ progress.log -> Entry.skipped run node ∈ start ∨
    ∃ result, progress.results.lookup node.id = some result ∧ result.success = false
  keys : progress.results.keys.Nodup

def Answered (run : Run) (progress : Progress World) (node : TaskNode) : Prop :=
  (∃ result, progress.results.lookup node.id = some result) ∧
    (Entry.started run node ∈ progress.log ∨ Entry.skipped run node ∈ progress.log)

structure Executed (orchestrator : Orchestrator World) (run : Run) (dag : TaskDAG)
    (start : List Entry) (progress : Progress World) : Prop
    extends Tabled orchestrator run dag start progress where
  answered : ∀ node ∈ dag.nodes, Answered run progress node

section
variable {orchestrator : Orchestrator World} {run : Run} {dag : TaskDAG} {start : List Entry}
variable {progress : Progress World}

theorem isSettled_iff (node : TaskNode) :
    progress.isSettled node = true <-> node.id ∈ progress.completed ∨ node.id ∈ progress.failed := by
  unfold Progress.isSettled
  rw [Bool.or_eq_true, List.contains_iff_mem, List.contains_iff_mem]

theorem mem_unsettled {node : TaskNode} :
    node ∈ progress.unsettled dag <-> node ∈ dag.nodes ∧ Not (progress.isSettled node = true) := by
  unfold Progress.unsettled
  rw [List.mem_filter, Bool.not_eq_true', Bool.not_eq_true]

theorem record_isSettled (ran : TaskNode × Except PyError SubAgentResult) (node : TaskNode) :
    (orchestrator.record progress ran).isSettled node = true <->
      progress.isSettled node = true ∨ node.id = ran.1.id := by
  rw [isSettled_iff, isSettled_iff]
  unfold Orchestrator.record
  split
  · rw [List.mem_append, List.mem_singleton, or_assoc]
  · dsimp only
    split
    · rw [List.mem_append, List.mem_singleton, or_right_comm]
    · rw [List.mem_append, List.mem_singleton, or_assoc]

theorem record_log (ran : TaskNode × Except PyError SubAgentResult) :
    (orchestrator.record progress ran).log = progress.log := by
  unfold Orchestrator.record
  split
  · rfl
  · dsimp only
    split <;> rfl

theorem record_results (ran : TaskNode × Except PyError SubAgentResult) : ∃ result,
    (orchestrator.record progress ran).results = progress.results.set ran.1.id result ∧
      (result.success = true -> ran.2.toOption = some result) := by
  unfold Orchestrator.record
  split
  · exact ⟨_, rfl, fun impossible => Bool.noConfusion impossible⟩
  case h_2 result returned =>
    refine ⟨result, ?_, ?_⟩
    · dsimp only
      split <;> rfl
    · intro _
      rw [returned]
      rfl

theorem record_completed {ran : TaskNode × Except PyError SubAgentResult} {id : String}
    (member : id ∈ (orchestrator.record progress ran).completed) :
    id ∈ progress.completed ∨ (id = ran.1.id ∧ ∃ result,
      ran.2.toOption = some result ∧ orchestrator.evaluator.Accepts ran.1 result) := by
  unfold Orchestrator.record at member
  split at member
  · exact .inl member
  case h_2 result returned =>
    dsimp only at member
    split at member
    case isTrue accepted =>
      rcases List.mem_append.mp member with old | new
      · exact .inl old
      · refine .inr ⟨List.mem_singleton.mp new, result, ?_, accepted⟩
        rw [returned]
        rfl
    case isFalse => exact .inl member

theorem Carried.record (carried : Carried orchestrator run dag start progress)
    {ran : TaskNode × Except PyError SubAgentResult} (member : ran.1 ∈ dag.nodes)
    (started : Entry.started run ran.1 ∈ progress.log)
    (ended : Entry.ended run ran.1 ran.2.toOption ∈ progress.log) :
    Carried orchestrator run dag start (orchestrator.record progress ran) := by
  rcases @record_results _ orchestrator progress ran with ⟨result, results, returned⟩
  refine ⟨?_, ?_, ?_, ?_, ?_, ?_⟩
  · rw [record_log]
    exact carried.written
  · intro id completed
    rw [record_log]
    rcases record_completed completed with old | ⟨same, result, output, accepted⟩
    · exact carried.completed id old
    · rw [output] at ended
      exact ⟨run, ran.1, result, ended, rfl, same.symm, accepted⟩
  · intro id other entry
    rw [results] at entry
    rw [record_log]
    rcases Dict.mem_set entry with new | old
    · cases new
      refine ⟨ran.1, member, rfl, ?_⟩
      intro success
      rw [← returned success]
      exact ended
    · exact carried.backed id other old
  · intro node inDag settled
    rw [record_log, results]
    rcases (record_isSettled ran node).mp settled with old | new
    · exact ⟨Dict.lookup_set_some (carried.settled node inDag old).1, (carried.settled node inDag old).2⟩
    · refine ⟨⟨result, ?_⟩, ?_⟩
      · rw [new]
        exact Dict.lookup_set_self _ _ _
      · rw [List.inj_on_of_nodup_map dag.distinct inDag member new]
        exact started
  · intro node skipped
    rw [record_log] at skipped
    exact carried.skips node skipped
  · rw [results]
    exact Dict.nodup_set carried.keys _ _

theorem Carried.foldl (ran : List (TaskNode × Except PyError SubAgentResult))
    (carried : Carried orchestrator run dag start progress)
    (known : ∀ one ∈ ran, one.1 ∈ dag.nodes ∧ Entry.started run one.1 ∈ progress.log ∧
      Entry.ended run one.1 one.2.toOption ∈ progress.log) :
    Carried orchestrator run dag start (ran.foldl orchestrator.record progress) := by
  induction ran generalizing progress with
  | nil => exact carried
  | cons one rest ih =>
    have here := known one List.mem_cons_self
    apply ih (carried.record here.1 here.2.1 here.2.2)
    intro other member
    rw [record_log]
    exact known other (List.mem_cons_of_mem one member)

theorem foldlM_settle_ok {ran : List (TaskNode × Except PyError SubAgentResult)}
    {after : Progress World} (settled : ran.foldlM orchestrator.settle progress = .ok after) :
    after = ran.foldl orchestrator.record progress ∧ ∀ one ∈ ran, isCancelled one.2 = false := by
  induction ran generalizing progress with
  | nil => exact ⟨(Except.ok.inj settled).symm, List.forall_mem_nil _⟩
  | cons one rest ih =>
    rw [List.foldlM_cons] at settled
    rcases bind_eq_ok.mp settled with ⟨next, first, later⟩
    unfold Orchestrator.settle at first
    split at first
    · cases first
    case isFalse returned =>
      cases first
      rcases ih later with ⟨same, others⟩
      refine ⟨same, fun other member => ?_⟩
      rcases List.mem_cons.mp member with rfl | among
      · exact Bool.not_eq_true _ ▸ returned
      · exact others other among

theorem foldlM_settle_error {ran : List (TaskNode × Except PyError SubAgentResult)} {error : PyError}
    (raised : ran.foldlM orchestrator.settle progress = .error error) :
    ∃ one ∈ ran, isCancelled one.2 = true := by
  by_contra returned
  have every : ∀ one ∈ ran, isCancelled one.2 = false := fun one member =>
    Bool.not_eq_true _ ▸ fun cancelled => returned ⟨one, member, cancelled⟩
  clear returned
  induction ran generalizing progress with
  | nil => cases raised
  | cons one rest ih =>
    have here : orchestrator.settle progress one = .ok (orchestrator.record progress one) :=
      if_neg (Bool.eq_false_iff.mp (every one List.mem_cons_self))
    rw [List.foldlM_cons, here] at raised
    exact ih raised fun other member => every other (List.mem_cons_of_mem one member)

theorem foldl_isSettled (ran : List (TaskNode × Except PyError SubAgentResult)) (node : TaskNode) :
    (ran.foldl orchestrator.record progress).isSettled node = true <->
      progress.isSettled node = true ∨ node.id ∈ ran.map fun one => one.1.id := by
  induction ran generalizing progress with
  | nil =>
    rw [List.map_nil]
    exact (or_iff_left List.not_mem_nil).symm
  | cons one rest ih =>
    rw [List.foldl_cons, ih, record_isSettled, List.map_cons, List.mem_cons, or_assoc]

theorem runNodes_nodes (context : Dict String String) (world : World) (nodes : List TaskNode) :
    (orchestrator.runNodes context world nodes).1.map Prod.fst = nodes := by
  induction nodes generalizing world with
  | nil => rfl
  | cons node rest ih =>
    unfold Orchestrator.runNodes
    rw [List.map_cons, ih]

theorem Carried.begun (carried : Carried orchestrator run dag start progress) {ready : List TaskNode}
    (known : ∀ node ∈ ready, node ∈ dag.nodes ∧ progress.isReady node = true) :
    Carried orchestrator run dag start (orchestrator.begun run ready progress) := by
  have nodes := @runNodes_nodes _ orchestrator progress.context progress.world ready
  unfold Orchestrator.begun
  dsimp only
  generalize (orchestrator.runNodes progress.context progress.world ready).1 = ended at nodes ⊢
  have grown := List.prefix_append progress.log (ready.map (Entry.started run) ++
    ended.map (endEntry run))
  have starts : EachAfter (InOrder orchestrator.evaluator run dag) progress.log
      (ready.map (Entry.started run)) := by
    refine eachAfter_of_forall ?_
    intro entry member later grown
    rcases List.mem_map.mp member with ⟨node, isReady, rfl⟩
    refine ⟨rfl, (known node isReady).1, ?_⟩
    intro dep depends
    have completed := List.all_eq_true.mp (known node isReady).2 dep depends
    exact (carried.completed dep (List.contains_iff_mem.mp completed)).mono grown
  have ends : EachAfter (InOrder orchestrator.evaluator run dag)
      (progress.log ++ ready.map (Entry.started run))
      (ended.map (endEntry run)) := by
    refine eachAfter_of_forall ?_
    intro entry member later _
    rcases List.mem_map.mp member with ⟨one, isEnded, rfl⟩
    have inDag := (known one.1 (nodes ▸ List.mem_map_of_mem isEnded)).1
    unfold endEntry
    split <;> exact ⟨rfl, inDag⟩
  refine ⟨?_, ?_, ?_, ?_, ?_, carried.keys⟩
  · rcases carried.written with ⟨more, log, inOrder⟩
    refine ⟨more ++ (ready.map (Entry.started run) ++ ended.map (endEntry run)), ?_, ?_⟩
    · dsimp only
      rw [log, List.append_assoc]
    · rw [log] at starts ends
      exact inOrder.append (starts.append ends)
  · intro id completed
    exact (carried.completed id completed).mono grown
  · intro id result entry
    rcases carried.backed id result entry with ⟨node, inDag, same, backed⟩
    exact ⟨node, inDag, same, fun success => grown.subset (backed success)⟩
  · intro node inDag settled
    have before := carried.settled node inDag settled
    exact ⟨before.1, grown.subset before.2⟩
  · intro node skipped
    rcases List.mem_append.mp skipped with old | new
    · exact carried.skips node old
    · rcases List.mem_append.mp new with started | ended
      · rcases List.mem_map.mp started with ⟨_, _, impossible⟩
        cases impossible
      · rcases List.mem_map.mp ended with ⟨_, _, impossible⟩
        unfold endEntry at impossible
        split at impossible <;> cases impossible

theorem Carried.runBatch (carried : Carried orchestrator run dag start progress)
    {ready : List TaskNode} {after : Progress World}
    (known : ∀ node ∈ ready, node ∈ dag.nodes ∧ progress.isReady node = true)
    (ran : orchestrator.runBatch run ready progress = .ok after) :
    Carried orchestrator run dag start after := by
  have nodes := @runNodes_nodes _ orchestrator progress.context progress.world ready
  rcases foldlM_settle_ok (mapError_eq_ok.mp ran) with ⟨rfl, returned⟩
  refine Carried.foldl _ (carried.begun known) ?_
  intro one member
  have isReady : one.1 ∈ ready := by
    rw [← nodes]
    exact List.mem_map_of_mem member
  refine ⟨(known one.1 isReady).1, ?_, ?_⟩
  · exact List.mem_append_right _ (List.mem_append_left _ (List.mem_map_of_mem isReady))
  · refine List.mem_append_right _ (List.mem_append_right _ (List.mem_map.mpr ⟨one, member, ?_⟩))
    exact if_neg (Bool.eq_false_iff.mp (returned one member))

theorem runBatch_error {ready : List TaskNode} {stopped : Stopped World}
    (raised : orchestrator.runBatch run ready progress = .error stopped) :
    ∃ node, Entry.cancelled run node ∈ stopped.log := by
  rcases mapError_eq_error.mp raised with ⟨error, failed, rfl⟩
  rcases foldlM_settle_error failed with ⟨one, member, cancelled⟩
  refine ⟨one.1, List.mem_append_right _ (List.mem_append_right _ ?_)⟩
  exact List.mem_map.mpr ⟨one, member, if_pos cancelled⟩

theorem runBatch_unsettled {ready : List TaskNode} {after : Progress World}
    (ran : orchestrator.runBatch run ready progress = .ok after) {node : TaskNode}
    (isReady : node ∈ ready) (waiting : node ∈ progress.unsettled dag) :
    (after.unsettled dag).length < (progress.unsettled dag).length := by
  have nodes := @runNodes_nodes _ orchestrator progress.context progress.world ready
  rcases foldlM_settle_ok (mapError_eq_ok.mp ran) with ⟨result, _⟩
  have settled : ∀ other, after.isSettled other = true <->
      progress.isSettled other = true ∨ other.id ∈ ready.map TaskNode.id := by
    intro other
    have ids := congrArg (List.map TaskNode.id) nodes
    rw [List.map_map] at ids
    rw [← ids, result]
    exact foldl_isSettled _ other
  have fewer : after.unsettled dag =
      (progress.unsettled dag).filter fun other => !after.isSettled other := by
    unfold Progress.unsettled
    rw [List.filter_filter]
    refine List.filter_congr ?_
    intro other _
    cases before : progress.isSettled other with
    | false => rw [Bool.not_false, Bool.and_true]
    | true =>
      rw [(settled other).mpr (.inl before)]
      rfl
  rw [fewer, List.length_filter_lt_length_iff_exists]
  refine ⟨node, waiting, ?_⟩
  rw [(settled node).mpr (.inr (List.mem_map_of_mem isReady))]
  exact Bool.false_ne_true

structure Skipping (orchestrator : Orchestrator World) (run : Run) (dag : TaskDAG)
    (start : List Entry) (waiting : List TaskNode) (progress : Progress World) : Prop
    extends Tabled orchestrator run dag start progress where
  answered : ∀ node ∈ dag.nodes, node ∈ waiting ∨ Answered run progress node

theorem Skipping.skipNode {node : TaskNode} {rest : List TaskNode}
    (skipping : Skipping orchestrator run dag start (node :: rest) progress)
    (inDag : node ∈ dag.nodes) :
    Skipping orchestrator run dag start rest (skipNode run progress node) := by
  have grown := List.prefix_append progress.log [Entry.skipped run node]
  have itself := Dict.lookup_set_self progress.results node.id (skippedResult node)
  refine ⟨⟨?_, ?_, ?_, Dict.nodup_set skipping.keys _ _⟩, ?_⟩
  · rcases skipping.written with ⟨more, log, inOrder⟩
    refine ⟨more ++ [Entry.skipped run node], ?_, inOrder.append (eachAfter_singleton ⟨rfl, inDag⟩)⟩
    unfold Orchestration.skipNode
    dsimp only
    rw [log, List.append_assoc]
  · intro id result entry
    rcases Dict.mem_set entry with new | old
    · cases new
      exact ⟨node, inDag, rfl, fun impossible => Bool.noConfusion impossible⟩
    · rcases skipping.backed id result old with ⟨other, otherInDag, same, backed⟩
      exact ⟨other, otherInDag, same, fun success => grown.subset (backed success)⟩
  · intro other skipped
    by_cases same : other.id = node.id
    · refine .inr ⟨skippedResult node, ?_, rfl⟩
      rw [same]
      exact itself
    · rcases List.mem_append.mp skipped with old | new
      · refine (skipping.skipped other old).imp_right ?_
        rintro ⟨result, found, unsuccessful⟩
        refine ⟨result, ?_, unsuccessful⟩
        exact (Dict.lookup_set_of_ne progress.results same (skippedResult node)).trans found
      · cases List.mem_singleton.mp new
        exact (same rfl).elim
  · intro other otherInDag
    rcases skipping.answered other otherInDag with waiting | ⟨found, seen⟩
    · rcases List.mem_cons.mp waiting with rfl | later
      · exact .inr ⟨⟨_, itself⟩, .inr (List.mem_append_right _ List.mem_cons_self)⟩
      · exact .inl later
    · refine .inr ⟨Dict.lookup_set_some found, ?_⟩
      exact seen.imp (fun started => grown.subset started) (fun skipped => grown.subset skipped)

theorem Skipping.executed (waiting : List TaskNode)
    (skipping : Skipping orchestrator run dag start waiting progress)
    (inDag : ∀ node ∈ waiting, node ∈ dag.nodes) :
    Executed orchestrator run dag start (waiting.foldl (Orchestration.skipNode run) progress) := by
  induction waiting generalizing progress with
  | nil =>
    refine ⟨skipping.toTabled, ?_⟩
    intro node member
    exact (skipping.answered node member).resolve_left List.not_mem_nil
  | cons node rest ih =>
    refine ih (skipping.skipNode (inDag node List.mem_cons_self)) ?_
    intro other member
    exact inDag other (List.mem_cons_of_mem node member)

theorem Carried.skip (carried : Carried orchestrator run dag start progress)
    (waiting : List TaskNode) (inDag : ∀ node ∈ waiting, node ∈ dag.nodes)
    (every : ∀ node ∈ dag.nodes, progress.isSettled node = true ∨ node ∈ waiting) :
    Executed orchestrator run dag start (waiting.foldl (Orchestration.skipNode run) progress) := by
  refine Skipping.executed waiting ⟨⟨carried.written, carried.backed, ?_, carried.keys⟩, ?_⟩ inDag
  · exact fun node skipped => .inl (carried.skips node skipped)
  · intro node member
    rcases every node member with settled | left
    · have before := carried.settled node member settled
      exact .inr ⟨before.1, .inl before.2⟩
    · exact .inl left

theorem Carried.executed (carried : Carried orchestrator run dag start progress)
    (none : progress.unsettled dag = []) : Executed orchestrator run dag start progress := by
  refine carried.skip [] (fun _ impossible => absurd impossible List.not_mem_nil) fun node inDag => .inl ?_
  by_contra waiting
  have member := mem_unsettled.mpr ⟨inDag, waiting⟩
  rw [none] at member
  cases member

def Concluded (orchestrator : Orchestrator World) (run : Run) (dag : TaskDAG) (start : List Entry) :
    Except (Stopped World) (Progress World) -> Prop
  | .ok progress => Executed orchestrator run dag start progress
  | .error stopped => ∃ node, Entry.cancelled run node ∈ stopped.log

theorem Carried.runRounds (rounds : Nat) (carried : Carried orchestrator run dag start progress)
    (enough : (progress.unsettled dag).length ≤ rounds) :
    Concluded orchestrator run dag start (orchestrator.runRounds run dag rounds progress) := by
  induction rounds generalizing progress with
  | zero => exact carried.executed (List.length_eq_zero_iff.mp (Nat.le_zero.mp enough))
  | succ rounds ih =>
    have order := orchestrator.arranged progress.world (progress.unsettled dag)
    have among : ∀ node ∈ orchestrator.arrange progress.world (progress.unsettled dag),
        node ∈ dag.nodes := fun node member => (mem_unsettled.mp (order.mem_iff.mp member)).1
    unfold Orchestrator.runRounds
    dsimp only
    split
    case isTrue empty =>
      have nothing := List.isEmpty_iff.mp empty
      rw [nothing] at order
      exact carried.executed order.nil_eq.symm
    case isFalse =>
      split
      case isTrue =>
        refine carried.skip _ among ?_
        intro node inDag
        by_cases settled : progress.isSettled node = true
        · exact .inl settled
        · exact .inr (order.mem_iff.mpr (mem_unsettled.mpr ⟨inDag, settled⟩))
      case isFalse some =>
        generalize batch : orchestrator.runBatch run _ progress = outcome
        cases outcome with
        | error stopped => exact runBatch_error batch
        | ok after =>
          refine ih (carried.runBatch ?_ batch) ?_
          · intro node member
            exact ⟨among node (List.mem_filter.mp member).1, (List.mem_filter.mp member).2⟩
          · rcases List.exists_mem_of_ne_nil _ (fun nothing => some (List.isEmpty_iff.mpr nothing))
              with ⟨node, member⟩
            have fewer := @runBatch_unsettled _ orchestrator run dag progress _ _ batch node member
              (order.mem_iff.mp (List.mem_filter.mp member).1)
            omega

/-- For every plan: unless a run is cancelled, the executor ends with a result for
every node, and what it has written is in order. -/
theorem execute_concluded (world : World) (start : List Entry) :
    Concluded orchestrator run dag start (orchestrator.execute run dag world start) := by
  unfold Orchestrator.execute
  refine Carried.runRounds _ ⟨⟨[], (List.append_nil start).symm, eachAfter_nil⟩, ?_, ?_, ?_, ?_,
    List.nodup_nil⟩ ?_
  · intro id impossible
    cases impossible
  · intro id result impossible
    cases impossible
  · intro node _ impossible
    rcases (isSettled_iff node).mp impossible with impossible | impossible <;> cases impossible
  · intro node skipped
    exact skipped
  · exact List.length_filter_le _ _

end

end Orchestration
end BreadMind
