import BreadMind.Execution.Graphs
import BreadMind.Orchestration.DagExecutor
import Mathlib.Order.WellFounded

namespace BreadMind
namespace Orchestration

open Execution Relation

/-!
# What an executor runs and what it skips

Every node has one subagent, which is spawned at most once, so how the subagents
end is a function of the nodes.

The world of the executor is the list of the spawned nodes, each with the context
it was given.
-/

abbrev Spawns := List (TaskNode × Dict String String)

structure Subagents where
  evaluator : ResultEvaluator
  answer : TaskNode -> Answer
  arrange : Spawns -> List TaskNode -> List TaskNode
  arranged : ∀ spawns nodes, (arrange spawns nodes).Perm nodes

namespace Subagents

variable (subagents : Subagents)

def orchestrator : Orchestrator Spawns where
  evaluator := subagents.evaluator
  spawn := fun spawns node context => (subagents.answer node, spawns ++ [(node, context)])
  arrange := subagents.arrange
  arranged := subagents.arranged
  askPlanner := fun spawns _ _ _ _ => (.raised, spawns)

def execute (dag : TaskDAG) : Except PyError (Progress Spawns) :=
  (subagents.orchestrator.execute .first dag [] []).mapError Stopped.error

def Returns (node : TaskNode) : Prop := isCancelled ((subagents.answer node).inTime node) = false

/-! ## The graph of the plan -/

def Passes (node : TaskNode) (output : String) : Prop :=
  ∃ result, (subagents.answer node).inTime node = .ok result ∧
    subagents.evaluator.Accepts node result ∧ result.output = output

end Subagents

def TaskDAG.Depends (dag : TaskDAG) (id dep : String) : Prop :=
  ∃ node ∈ dag.nodes, node.id = id ∧ dep ∈ node.dependsOn

/-- The node leads to a cycle or to an unknown id. -/
def TaskDAG.Broken (dag : TaskDAG) (node : TaskNode) : Prop :=
  ∃ id, ReflTransGen dag.Depends node.id id ∧
    (id ∉ dag.ids ∨ TransGen dag.Depends id id)

namespace Subagents

variable (subagents : Subagents)

def Failed (progress : Progress Spawns) (id : String) : Prop :=
  ∃ node ∈ progress.world.map Prod.fst, node.id = id ∧
    ∀ output, Not (subagents.Passes node output)

/-- What the spawned node depends on was spawned before it, has a normal output and
is in its context. -/
def Fed (before : Spawns) (spawned : TaskNode × Dict String String) : Prop :=
  ∀ dep ∈ spawned.1.dependsOn, ∃ other ∈ before.map Prod.fst, other.id = dep ∧ ∃ output,
      subagents.Passes other output ∧ spawned.2.lookup dep = some output

structure Delivers (dag : TaskDAG) (progress : Progress Spawns) : Prop where
  results : progress.results.keys.Nodup ∧ ∀ id, id ∈ progress.results.keys <-> id ∈ dag.ids
  once : (progress.world.map Prod.fst).Nodup
  among : ∀ node ∈ progress.world.map Prod.fst, node ∈ dag.nodes
  fed : Each subagents.Fed progress.world
  after : ∀ before node after, progress.log = before ++ .started .first node :: after ->
    ∀ dep ∈ node.dependsOn, Passed subagents.evaluator before none dep
  skipped : ∀ node ∈ dag.nodes,
    (node ∉ progress.world.map Prod.fst ∧
        progress.results.lookup node.id = some (skippedResult node) <->
      dag.Broken node ∨ ∃ id, TransGen dag.Depends node.id id ∧
        subagents.Failed progress id)

def CanRun (dag : TaskDAG) (node : TaskNode) : Prop :=
  Not (dag.Broken node) ∧ ∀ other ∈ dag.nodes,
    TransGen dag.Depends node.id other.id -> ∃ output, subagents.Passes other output

end Subagents

section Rounds

variable {subagents : Subagents} {dag : TaskDAG} {progress : Progress Spawns}

def Subagents.Blocked (subagents : Subagents) (dag : TaskDAG) (progress : Progress Spawns)
    (node : TaskNode) : Prop :=
  dag.Broken node ∨ ∃ id, TransGen dag.Depends node.id id ∧
    subagents.Failed progress id

structure Underway (subagents : Subagents) (dag : TaskDAG) (pending : List TaskNode)
    (progress : Progress Spawns) : Prop where
  among : ∀ node ∈ progress.world.map Prod.fst, node ∈ dag.nodes
  settled : ∀ node ∈ dag.nodes,
    (node ∈ progress.world.map Prod.fst <-> progress.isSettled node = true ∨ node ∈ pending)
  waiting : ∀ node ∈ pending, node ∈ dag.nodes ∧ Not (progress.isSettled node = true)
  distinct : pending.Nodup
  once : (progress.world.map Prod.fst).Nodup
  completed : ∀ id ∈ progress.completed, ∃ node ∈ progress.world.map Prod.fst, node.id = id ∧ ∃ output,
      subagents.Passes node output ∧ progress.context.lookup id = some output
  failed : ∀ id ∈ progress.failed, subagents.Failed progress id
  supplied : ∀ node ∈ progress.world.map Prod.fst,
    ∀ dep ∈ node.dependsOn, dep ∈ progress.completed
  grounded : ∀ node ∈ progress.world.map Prod.fst,
    Acc (fun dep id => dag.Depends id dep) node.id
  fed : Each subagents.Fed progress.world

theorem TaskDAG.node_unique {first second : TaskNode} (firstMember : first ∈ dag.nodes)
    (secondMember : second ∈ dag.nodes) (same : first.id = second.id) : first = second :=
  List.inj_on_of_nodup_map dag.distinct firstMember secondMember same

def Subagents.judged (subagents : Subagents) (progress : Progress Spawns) (node : TaskNode) :
    Progress Spawns :=
  subagents.orchestrator.record progress (node, (subagents.answer node).inTime node)

theorem judged_cases (subagents : Subagents) (progress : Progress Spawns) (node : TaskNode) :
    (∃ output, subagents.Passes node output ∧
      (subagents.judged progress node).completed = progress.completed ++ [node.id] ∧
      (subagents.judged progress node).failed = progress.failed ∧
      (subagents.judged progress node).context = progress.context.set node.id output) ∨
    ((∀ output, Not (subagents.Passes node output)) ∧
      (subagents.judged progress node).completed = progress.completed ∧
      (subagents.judged progress node).failed = progress.failed ++ [node.id] ∧
      (subagents.judged progress node).context = progress.context) := by
  unfold Subagents.judged Orchestrator.record
  dsimp only
  cases ran : (subagents.answer node).inTime node with
  | error text =>
    refine .inr ⟨?_, rfl, rfl, rfl⟩
    rintro output ⟨result, returned, _⟩
    cases ran.symm.trans returned
  | ok result =>
    dsimp only
    split
    case isTrue accepted => exact .inl ⟨result.output, ⟨result, ran, accepted, rfl⟩, rfl, rfl, rfl⟩
    case isFalse refused =>
      refine .inr ⟨?_, rfl, rfl, rfl⟩
      rintro output ⟨other, returned, accepted, _⟩
      cases ran.symm.trans returned
      exact refused accepted

theorem judged_world (node : TaskNode) :
    (subagents.judged progress node).world = progress.world := by
  unfold Subagents.judged Orchestrator.record
  split
  · rfl
  · dsimp only
    split <;> rfl

variable {node : TaskNode}

theorem Underway.judge {rest : List TaskNode}
    (underway : Underway subagents dag (node :: rest) progress) :
    Underway subagents dag rest (subagents.judged progress node) := by
  rcases underway.waiting node List.mem_cons_self with ⟨member, unsettled⟩
  rcases List.nodup_cons.mp underway.distinct with ⟨fresh, distinct⟩
  have spawned : node ∈ progress.world.map Prod.fst :=
    (underway.settled node member).mpr (.inr List.mem_cons_self)
  have world : (subagents.judged progress node).world = progress.world := judged_world node
  have settles (other : TaskNode) :
      (subagents.orchestrator.record progress
        (node, (subagents.answer node).inTime node)).isSettled other = true <->
          progress.isSettled other = true ∨ other.id = node.id := record_isSettled _ other
  have verdict := judged_cases subagents progress node
  refine
    { among := ?_, settled := ?_, waiting := ?_, distinct := distinct, once := ?_
      completed := ?_, failed := ?_, supplied := ?_, grounded := ?_, fed := ?_ }
  · rw [world]
    exact underway.among
  · intro other otherMember
    rw [world, Subagents.judged, settles, underway.settled other otherMember, List.mem_cons, or_assoc]
    refine or_congr_right (or_congr_left ⟨congrArg TaskNode.id, fun same => ?_⟩)
    exact TaskDAG.node_unique otherMember member same
  · intro other pending
    rcases underway.waiting other (List.mem_cons_of_mem node pending) with ⟨otherMember, before⟩
    refine ⟨otherMember, fun settled => ?_⟩
    rcases (settles other).mp settled with old | same
    · exact before old
    · exact fresh (TaskDAG.node_unique otherMember member same ▸ pending)
  · rw [world]
    exact underway.once
  · intro id completed
    rw [world]
    rcases verdict with ⟨output, passes, nowCompleted, _, context⟩ | ⟨_, nowCompleted, _, context⟩
    · rw [nowCompleted] at completed
      rw [context]
      rcases List.mem_append.mp completed with old | new
      · rcases underway.completed id old with ⟨other, ran, same, found, otherPasses, holds⟩
        refine ⟨other, ran, same, found, otherPasses, ?_⟩
        refine (Dict.lookup_set_of_ne _ (fun again => unsettled ?_) _).trans holds
        rw [isSettled_iff]
        exact .inl (again ▸ old)
      · cases List.mem_singleton.mp new
        exact ⟨node, spawned, rfl, output, passes, Dict.lookup_set_self _ _ _⟩
    · rw [nowCompleted] at completed
      rw [context]
      exact underway.completed id completed
  · intro id failed
    unfold Subagents.Failed
    rw [world]
    rcases verdict with ⟨_, _, _, nowFailed, _⟩ | ⟨refused, _, nowFailed, _⟩
    · rw [nowFailed] at failed
      exact underway.failed id failed
    · rw [nowFailed] at failed
      rcases List.mem_append.mp failed with old | new
      · exact underway.failed id old
      · exact ⟨node, spawned, (List.mem_singleton.mp new).symm, refused⟩
  · intro other ran dep depends
    rw [world] at ran
    have before := underway.supplied other ran dep depends
    rcases verdict with ⟨_, _, nowCompleted, _⟩ | ⟨_, nowCompleted, _⟩
    · rw [nowCompleted]
      exact List.mem_append_left _ before
    · rw [nowCompleted]
      exact before
  · rw [world]
    exact underway.grounded
  · rw [world]
    exact underway.fed

theorem Underway.judgeAll (pending : List TaskNode)
    (underway : Underway subagents dag pending progress) :
    Underway subagents dag [] (pending.foldl subagents.judged progress) := by
  induction pending generalizing progress with
  | nil => exact underway
  | cons node rest ih => exact ih underway.judge

theorem runNodes_eq (subagents : Subagents) (context : Dict String String) (spawns : Spawns)
    (nodes : List TaskNode) : subagents.orchestrator.runNodes context spawns nodes =
      (nodes.map fun node => (node, (subagents.answer node).inTime node),
        spawns ++ nodes.map fun node => (node, context)) := by
  induction nodes generalizing spawns with
  | nil => exact congrArg (Prod.mk []) (List.append_nil spawns).symm
  | cons node rest ih =>
    let later := subagents.orchestrator.runNodes context (spawns ++ [(node, context)]) rest
    change ((node, (subagents.answer node).inTime node) :: later.1, later.2) = _
    rw [show later = _ from ih _, List.append_assoc]
    rfl

variable {ready : List TaskNode}

theorem Underway.spawn (underway : Underway subagents dag [] progress)
    (distinct : ready.Nodup) (unsettled : ∀ node ∈ ready, node ∈ progress.unsettled dag)
    (isReady : ∀ node ∈ ready, progress.isReady node = true) (log : List Entry) :
    Underway subagents dag ready { progress with
        world := progress.world ++ ready.map fun node => (node, progress.context), log := log } := by
  have spawns : (progress.world ++ ready.map fun node => (node, progress.context)).map Prod.fst =
      progress.world.map Prod.fst ++ ready := by
    rw [List.map_append, List.map_map]
    exact congrArg _ (List.map_id ready)
  have supplies : ∀ node ∈ ready, ∀ dep ∈ node.dependsOn,
      dep ∈ progress.completed := fun node member dep depends =>
    List.contains_iff_mem.mp (List.all_eq_true.mp (isReady node member) dep depends)
  refine
    { among := ?_, settled := ?_, waiting := ?_, distinct := distinct, once := ?_
      completed := ?_, failed := ?_, supplied := ?_, grounded := ?_, fed := ?_ }
  · intro node member
    rw [spawns] at member
    rcases List.mem_append.mp member with old | new
    · exact underway.among node old
    · exact (mem_unsettled.mp (unsettled node new)).1
  · intro node member
    rw [spawns, List.mem_append, underway.settled node member]
    exact or_congr_left (or_iff_left List.not_mem_nil)
  · exact fun node member => mem_unsettled.mp (unsettled node member)
  · rw [spawns]
    refine List.Nodup.append underway.once distinct fun node old new => ?_
    rcases mem_unsettled.mp (unsettled node new) with ⟨member, unsettled⟩
    exact unsettled (((underway.settled node member).mp old).resolve_right List.not_mem_nil)
  · intro id completed
    rcases underway.completed id completed with ⟨node, ran, rest⟩
    refine ⟨node, ?_, rest⟩
    rw [spawns]
    exact List.mem_append_left _ ran
  · intro id failed
    rcases underway.failed id failed with ⟨node, ran, rest⟩
    refine ⟨node, ?_, rest⟩
    rw [spawns]
    exact List.mem_append_left _ ran
  · intro node member
    rw [spawns] at member
    rcases List.mem_append.mp member with old | new
    · exact underway.supplied node old
    · exact supplies node new
  · intro node member
    rw [spawns] at member
    rcases List.mem_append.mp member with old | new
    · exact underway.grounded node old
    · refine ⟨_, ?_⟩
      rintro dep ⟨other, otherMember, same, depends⟩
      have here : other = node := TaskDAG.node_unique otherMember
        (mem_unsettled.mp (unsettled node new)).1 same
      rcases underway.completed dep (supplies node new dep (here ▸ depends)) with
        ⟨supplier, ran, rfl, _⟩
      exact underway.grounded supplier ran
  · refine underway.fed.append (eachAfter_of_forall fun entry member before grown dep depends => ?_)
    rcases List.mem_map.mp member with ⟨node, isIn, rfl⟩
    rcases underway.completed dep (supplies node isIn dep depends) with
      ⟨other, ran, same, output, passes, found⟩
    exact ⟨other, (grown.map Prod.fst).subset ran, same, output, passes, found⟩

theorem Underway.leads {pending : List TaskNode}
    (underway : Underway subagents dag pending progress)
    (spawned : node ∈ progress.world.map Prod.fst) {id : String}
    (leads : TransGen dag.Depends node.id id) : id ∈ progress.completed := by
  have next : ∀ source dep, (∃ node ∈ progress.world.map Prod.fst, node.id = source) -> dag.Depends source dep ->
      dep ∈ progress.completed := by
    rintro source dep ⟨node, ran, rfl⟩ ⟨other, otherMember, same, depends⟩
    have here := TaskDAG.node_unique otherMember (underway.among node ran) same
    exact underway.supplied node ran dep (here ▸ depends)
  induction leads with
  | single step => exact next _ _ ⟨node, spawned, rfl⟩ step
  | tail _ step ih =>
    rcases underway.completed _ ih with ⟨other, ran, same, _⟩
    exact next _ _ ⟨other, ran, same⟩ step

theorem Underway.canRun {pending : List TaskNode}
    (underway : Underway subagents dag pending progress)
    (spawned : node ∈ progress.world.map Prod.fst) : subagents.CanRun dag node := by
  have member := underway.among node spawned
  refine ⟨?_, fun other otherMember leads => ?_⟩
  · rintro ⟨id, leads, unknown⟩
    have known : ∃ other ∈ progress.world.map Prod.fst, other.id = id := by
      rcases reflTransGen_iff_eq_or_transGen.mp leads with rfl | leads
      · exact ⟨node, spawned, rfl⟩
      · rcases underway.completed id (underway.leads spawned leads) with ⟨other, ran, same, _⟩
        exact ⟨other, ran, same⟩
    rcases known with ⟨other, ran, rfl⟩
    rcases unknown with unknown | cycle
    · exact unknown (List.mem_map_of_mem (underway.among other ran))
    · exact not_cycle_of_acc (underway.grounded other ran) cycle
  · rcases underway.completed other.id (underway.leads spawned leads) with
      ⟨supplier, ran, same, output, passes, _⟩
    exact ⟨output, TaskDAG.node_unique (underway.among supplier ran) otherMember same ▸ passes⟩

theorem Subagents.CanRun.not_blocked (canRun : subagents.CanRun dag node)
    (among : ∀ node ∈ progress.world.map Prod.fst, node ∈ dag.nodes) :
    Not (subagents.Blocked dag progress node) := by
  rintro (broken | ⟨id, leads, other, ran, rfl, refused⟩)
  · exact canRun.1 broken
  · rcases canRun.2 other (among other ran) leads with ⟨output, passes⟩
    exact refused output passes

open Classical in
theorem Underway.blocked (underway : Underway subagents dag [] progress)
    (stuck : ∀ node ∈ progress.unsettled dag, Not (progress.isReady node = true))
    (left : node ∈ progress.unsettled dag) : subagents.Blocked dag progress node := by
  by_contra free
  let nodes := ((progress.unsettled dag).filter fun other =>
    ReflTransGen dag.Depends node.id other.id).map TaskNode.id |>.toFinset
  have member : node.id ∈ nodes := by
    refine List.mem_toFinset.mpr (List.mem_map_of_mem (List.mem_filter.mpr ⟨left, ?_⟩))
    exact decide_eq_true ReflTransGen.refl
  have goesOn : ∀ id ∈ nodes, ∃ dep ∈ nodes, dag.Depends id dep := by
    intro id inside
    rcases List.mem_map.mp (List.mem_toFinset.mp inside) with ⟨other, isIn, rfl⟩
    rcases List.mem_filter.mp isIn with ⟨otherLeft, decided⟩
    have leads := of_decide_eq_true decided
    have waits := stuck other otherLeft
    unfold Progress.isReady at waits
    rw [List.all_eq_true, not_forall] at waits
    rcases waits with ⟨dep, waits⟩
    rw [Classical.not_imp, List.contains_iff_mem] at waits
    have step : dag.Depends other.id dep := ⟨other, (mem_unsettled.mp otherLeft).1, rfl, waits.1⟩
    have known : dep ∈ dag.ids := by
      by_contra unknown
      exact free (.inl ⟨dep, leads.tail step, .inl unknown⟩)
    rcases List.mem_map.mp known with ⟨supplier, supplierMember, rfl⟩
    refine ⟨supplier.id, List.mem_toFinset.mpr (List.mem_map_of_mem (List.mem_filter.mpr
      ⟨mem_unsettled.mpr ⟨supplierMember, fun settled => ?_⟩, decide_eq_true (leads.tail step)⟩)), step⟩
    rcases (isSettled_iff supplier).mp settled with completed | failed
    · exact waits.2 completed
    · exact free (.inr ⟨supplier.id, TransGen.tail' leads step, underway.failed _ failed⟩)
  rcases exists_cycle goesOn member with ⟨id, leads, cycle⟩
  exact free (.inl ⟨id, leads, .inr cycle⟩)

/-! ## Batch after batch -/

variable {after : Progress Spawns}

theorem runBatch_judged (ran : subagents.orchestrator.runBatch .first ready progress = .ok after) :
    after = ready.foldl subagents.judged (subagents.orchestrator.begun .first ready progress) := by
  rcases foldlM_settle_ok (mapError_eq_ok.mp ran) with ⟨rfl, _⟩
  rw [runNodes_eq, List.foldl_map]
  rfl

theorem exists_runBatch_ok :
    (∃ after, subagents.orchestrator.runBatch .first ready progress = .ok after) <->
      ∀ node ∈ ready, subagents.Returns node := by
  have goes : ∀ (before : Progress Spawns) (ran : TaskNode × Except PyError SubAgentResult),
      (∃ after, subagents.orchestrator.settle before ran = .ok after) <->
        isCancelled ran.2 = false := by
    intro before ran
    unfold Orchestrator.settle
    split
    case isTrue cancelled =>
      refine iff_of_false (by rintro ⟨_, ⟨⟩⟩) ?_
      rw [cancelled]
      exact Bool.noConfusion
    case isFalse returned => exact iff_of_true ⟨_, rfl⟩ (Bool.not_eq_true _ ▸ returned)
  unfold Orchestrator.runBatch
  dsimp only
  refine (exists_congr fun after => mapError_eq_ok).trans ?_
  rw [runNodes_eq]
  refine (exists_foldlM_ok goes _ _).trans ?_
  exact List.forall_mem_map

theorem Underway.runBatch (underway : Underway subagents dag [] progress)
    (distinct : ready.Nodup) (unsettled : ∀ node ∈ ready, node ∈ progress.unsettled dag)
    (isReady : ∀ node ∈ ready, progress.isReady node = true)
    (ran : subagents.orchestrator.runBatch .first ready progress = .ok after) :
    Underway subagents dag [] after ∧ ∀ node ∈ after.world.map Prod.fst,
      node ∈ progress.world.map Prod.fst ∨ node ∈ ready := by
  rw [runBatch_judged ran]
  have world : ∀ (nodes : List TaskNode) (before : Progress Spawns),
      (nodes.foldl subagents.judged before).world = before.world := by
    intro nodes
    induction nodes with
    | nil => exact fun _ => rfl
    | cons node rest ih => exact fun before => (ih _).trans (judged_world node)
  have begun : subagents.orchestrator.begun .first ready progress = { progress with
      world := progress.world ++ ready.map fun node => (node, progress.context)
      log := (subagents.orchestrator.begun .first ready progress).log } := by
    unfold Orchestrator.begun
    rw [runNodes_eq]
  rw [begun]
  refine ⟨(underway.spawn distinct unsettled isReady _).judgeAll ready, fun node member => ?_⟩
  rw [world, List.map_append, List.map_map, List.mem_append] at member
  exact member.imp_right fun new => (List.map_id ready) ▸ new

inductive Round (subagents : Subagents) (dag : TaskDAG) (rounds : Nat)
    (progress : Progress Spawns) : Except (Stopped Spawns) (Progress Spawns) -> Prop where
  | done (nothing : progress.unsettled dag = []) : Round subagents dag rounds progress (.ok progress)
  | stuck {waiting : List TaskNode} (left : waiting.Perm (progress.unsettled dag))
      (blocked : ∀ node ∈ progress.unsettled dag, Not (progress.isReady node = true)) :
      Round subagents dag rounds progress (.ok (waiting.foldl (skipNode .first) progress))
  | batch {ready : List TaskNode} (some : ready ≠ []) (distinct : ready.Nodup)
      (unsettled : ∀ node ∈ ready, node ∈ progress.unsettled dag)
      (isReady : ∀ node ∈ ready, progress.isReady node = true) :
      Round subagents dag rounds progress
        (subagents.orchestrator.runBatch .first ready progress >>=
          subagents.orchestrator.runRounds .first dag rounds)

theorem round (subagents : Subagents) (dag : TaskDAG) (rounds : Nat) (progress : Progress Spawns) :
    Round subagents dag rounds progress
      (subagents.orchestrator.runRounds .first dag (rounds + 1) progress) := by
  have order := subagents.orchestrator.arranged progress.world (progress.unsettled dag)
  unfold Orchestrator.runRounds
  dsimp only
  split
  case isTrue empty =>
    rw [List.isEmpty_iff.mp empty] at order
    exact .done order.nil_eq.symm
  case isFalse =>
    split
    case isTrue empty =>
      refine .stuck order fun node left => ?_
      exact List.filter_eq_nil_iff.mp (List.isEmpty_iff.mp empty) node (order.mem_iff.mpr left)
    case isFalse some =>
      refine .batch (fun empty => some (List.isEmpty_iff.mpr empty)) ?_ ?_ ?_
      · refine (order.nodup_iff.mpr ?_).filter _
        exact (List.Nodup.of_map _ dag.distinct).filter _
      · exact fun node member => order.mem_iff.mp (List.mem_filter.mp member).1
      · exact fun node member => (List.mem_filter.mp member).2

theorem foldl_skipNode (waiting : List TaskNode) (progress : Progress Spawns) :
    (waiting.foldl (skipNode .first) progress).world = progress.world ∧
      ∀ node, node ∈ waiting ∨ progress.results.lookup node.id = some (skippedResult node) ->
        (waiting.foldl (skipNode .first) progress).results.lookup node.id =
          some (skippedResult node) := by
  induction waiting generalizing progress with
  | nil => exact ⟨rfl, fun node marked => marked.resolve_left List.not_mem_nil⟩
  | cons head rest ih =>
    have later := ih (skipNode .first progress head)
    refine ⟨later.1, fun node marked => later.2 node ?_⟩
    have itself := Dict.lookup_set_self progress.results head.id (skippedResult head)
    by_cases same : node.id = head.id
    · refine .inr ?_
      have alike : skippedResult node = skippedResult head := by
        unfold skippedResult
        rw [same]
      rw [alike, same]
      exact itself
    · rcases marked with member | before
      · exact .inl ((List.mem_cons.mp member).resolve_left fun here => same (congrArg _ here))
      · exact .inr ((Dict.lookup_set_of_ne progress.results same _).trans before)

structure Ended (subagents : Subagents) (dag : TaskDAG) (progress : Progress Spawns) : Prop where
  among : ∀ node ∈ progress.world.map Prod.fst, node ∈ dag.nodes
  once : (progress.world.map Prod.fst).Nodup
  fed : Each subagents.Fed progress.world
  canRun : ∀ node ∈ progress.world.map Prod.fst, subagents.CanRun dag node
  answered : ∀ node ∈ progress.world.map Prod.fst, subagents.Returns node
  skipped : ∀ node ∈ dag.nodes, node ∉ progress.world.map Prod.fst ->
    subagents.Blocked dag progress node ∧
      progress.results.lookup node.id = some (skippedResult node)

theorem Underway.ended (underway : Underway subagents dag [] progress)
    (answered : ∀ node ∈ progress.world.map Prod.fst, subagents.Returns node)
    (nothing : progress.unsettled dag = []) : Ended subagents dag progress where
  among := underway.among
  once := underway.once
  fed := underway.fed
  canRun := fun _ => underway.canRun
  answered := answered
  skipped := fun node member absent => by
    have left := mem_unsettled.mpr ⟨member, fun settled =>
      absent ((underway.settled node member).mpr (.inl settled))⟩
    rw [nothing] at left
    cases left

theorem Underway.ended_skipped (underway : Underway subagents dag [] progress)
    (answered : ∀ node ∈ progress.world.map Prod.fst, subagents.Returns node)
    {waiting : List TaskNode} (left : waiting.Perm (progress.unsettled dag))
    (stuck : ∀ node ∈ progress.unsettled dag, Not (progress.isReady node = true)) :
    Ended subagents dag (waiting.foldl (skipNode .first) progress) := by
  rcases foldl_skipNode waiting progress with ⟨world, marked⟩
  have blocks : ∀ node, subagents.Blocked dag progress node ->
      subagents.Blocked dag (waiting.foldl (skipNode .first) progress) node := by
    intro node blocked
    unfold Subagents.Blocked Subagents.Failed
    rw [world]
    exact blocked
  refine ⟨?_, ?_, ?_, ?_, ?_, fun node member absent => ?_⟩
  · rw [world]
    exact underway.among
  · rw [world]
    exact underway.once
  · rw [world]
    exact underway.fed
  · rw [world]
    exact fun _ => underway.canRun
  · rw [world]
    exact answered
  · rw [world] at absent
    have isLeft := mem_unsettled.mpr ⟨member, fun settled =>
      absent ((underway.settled node member).mpr (.inl settled))⟩
    exact ⟨blocks node (underway.blocked stuck isLeft), marked node (.inl (left.mem_iff.mpr isLeft))⟩

theorem Underway.runRounds (rounds : Nat) (underway : Underway subagents dag [] progress)
    (answered : ∀ node ∈ progress.world.map Prod.fst, subagents.Returns node)
    (enough : (progress.unsettled dag).length ≤ rounds) :
    (∀ after, subagents.orchestrator.runRounds .first dag rounds progress = .ok after -> Ended subagents dag after) ∧
      ((∀ node ∈ dag.nodes, subagents.CanRun dag node -> subagents.Returns node) ->
        ∃ after, subagents.orchestrator.runRounds .first dag rounds progress = .ok after) := by
  induction rounds generalizing progress with
  | zero =>
    refine ⟨?_, fun _ => ⟨progress, rfl⟩⟩
    rintro after ⟨⟩
    exact underway.ended answered (List.length_eq_zero_iff.mp (Nat.le_zero.mp enough))
  | succ rounds ih =>
    have once := round subagents dag rounds progress
    generalize subagents.orchestrator.runRounds .first dag (rounds + 1) progress = outcome at once ⊢
    cases once with
    | done nothing =>
      refine ⟨?_, fun _ => ⟨progress, rfl⟩⟩
      rintro after ⟨⟩
      exact underway.ended answered nothing
    | stuck left blocked =>
      refine ⟨?_, fun _ => ⟨_, rfl⟩⟩
      rintro after ⟨⟩
      exact underway.ended_skipped answered left blocked
    | @batch ready some distinct unsettled isReady =>
      have goesOn : ∀ next, subagents.orchestrator.runBatch .first ready progress = .ok next ->
          Underway subagents dag [] next ∧
            (∀ node ∈ next.world.map Prod.fst, subagents.Returns node) ∧
            (next.unsettled dag).length ≤ rounds := by
        intro next batch
        have later := underway.runBatch distinct unsettled isReady batch
        have each := exists_runBatch_ok.mp ⟨next, batch⟩
        refine ⟨later.1, fun node member => (later.2 node member).elim (answered node) (each node), ?_⟩
        rcases List.exists_mem_of_ne_nil _ some with ⟨node, member⟩
        have less := @runBatch_unsettled _ subagents.orchestrator .first dag progress _ _ batch node
          member (unsettled node member)
        omega
      constructor
      · intro after ran
        rcases bind_eq_ok.mp ran with ⟨next, batch, rest⟩
        rcases goesOn next batch with ⟨later, returned, fewer⟩
        exact (ih later returned fewer).1 after rest
      · intro sound
        have begun := underway.spawn distinct unsettled isReady []
        have each : ∀ node ∈ ready, subagents.Returns node := by
          intro node member
          refine sound node (mem_unsettled.mp (unsettled node member)).1 (begun.canRun ?_)
          exact (begun.settled node (mem_unsettled.mp (unsettled node member)).1).mpr (.inr member)
        rcases exists_runBatch_ok.mpr each with ⟨next, batch⟩
        rcases goesOn next batch with ⟨later, returned, fewer⟩
        rcases (ih later returned fewer).2 sound with ⟨after, rest⟩
        exact ⟨after, bind_eq_ok.mpr ⟨next, batch, rest⟩⟩

theorem underway_start (subagents : Subagents) (dag : TaskDAG) :
    Underway subagents dag [] { world := [], context := dag.context, results := [], completed := [],
                                failed := [], log := [] } where
  among := List.forall_mem_nil _
  settled := fun _ _ => iff_of_false List.not_mem_nil (not_or.mpr ⟨nofun, List.not_mem_nil⟩)
  waiting := List.forall_mem_nil _
  distinct := List.nodup_nil
  once := List.nodup_nil
  completed := List.forall_mem_nil _
  failed := List.forall_mem_nil _
  supplied := List.forall_mem_nil _
  grounded := List.forall_mem_nil _
  fed := each_nil

theorem Ended.delivers (ended : Ended subagents dag progress)
    (executed : Executed subagents.orchestrator .first dag [] progress) :
    subagents.Delivers dag progress where
  results := by
    refine ⟨executed.keys, fun id => ⟨fun key => ?_, fun listed => ?_⟩⟩
    · rcases List.mem_map.mp key with ⟨⟨_, result⟩, entry, rfl⟩
      rcases executed.backed _ result entry with ⟨node, member, rfl, _⟩
      exact List.mem_map_of_mem member
    · rcases List.mem_map.mp listed with ⟨node, member, rfl⟩
      rcases (executed.answered node member).1 with ⟨result, found⟩
      exact List.mem_map_of_mem (f := Prod.fst) (Dict.mem_of_lookup found)
  once := ended.once
  among := ended.among
  fed := ended.fed
  after := by
    rcases executed.written with ⟨more, log, inOrder⟩
    intro before node after split
    have entry := inOrder before (.started .first node) after (by rw [← split, log, List.nil_append])
    exact entry.2.2
  skipped := by
    intro node member
    constructor
    · exact fun marked => (ended.skipped node member marked.1).1
    · intro blocked
      have absent : node ∉ progress.world.map Prod.fst :=
        fun spawned => (ended.canRun node spawned).not_blocked ended.among blocked
      exact ⟨absent, (ended.skipped node member absent).2⟩

/-- The plan is carried out, with one result for each node, each spawned at most once
and behind what it depends on, and exactly the blocked ones skipped, exactly when no
subagent of a node that can run is cancelled. -/
theorem execute_exactly (subagents : Subagents) (dag : TaskDAG) :
    (∃ progress, subagents.execute dag = .ok progress ∧
      subagents.Delivers dag progress) <-> ∀ node ∈ dag.nodes, subagents.CanRun dag node ->
        subagents.Returns node := by
  have runs := Underway.runRounds dag.nodes.length (underway_start subagents dag)
    (List.forall_mem_nil _) (List.length_filter_le _ _)
  constructor
  · rintro ⟨progress, ran, _⟩ node member canRun
    have ended := runs.1 progress (mapError_eq_ok.mp ran)
    by_cases spawned : node ∈ progress.world.map Prod.fst
    · exact ended.answered node spawned
    · exact (canRun.not_blocked ended.among (ended.skipped node member spawned).1).elim
  · intro sound
    rcases runs.2 sound with ⟨progress, ran⟩
    refine ⟨progress, mapError_eq_ok.mpr ran, (runs.1 progress ran).delivers ?_⟩
    have concluded := @execute_concluded _ subagents.orchestrator .first dag [] []
    rw [show subagents.orchestrator.execute .first dag [] [] = .ok progress from ran] at concluded
    exact concluded

end Rounds

def lonelyTask : TaskNode where
  id := "search"
  description := "Search"
  role := "researcher"
  dependsOn := []
  difficulty := "low"
  tools := []
  expectedOutput := ""
  maxRetries := 2

def lonelyPlan : TaskDAG where
  goal := "Search"
  nodes := [lonelyTask]
  context := []
  distinct := List.nodup_singleton _

def cancelledSubagents : Subagents where
  evaluator := { isSpace := fun letter => letter = ' ' }
  answer := fun _ => { finish := .error (.raised "CancelledError" ""), late := false }
  arrange := fun _ nodes => nodes
  arranged := fun _ nodes => List.Perm.refl nodes

theorem cancelled_subagent_fails :
    cancelledSubagents.execute lonelyPlan = .error noOutput ∧
      Not (∃ progress, cancelledSubagents.execute lonelyPlan = .ok progress ∧
        cancelledSubagents.Delivers lonelyPlan progress) := by
  have fails : cancelledSubagents.execute lonelyPlan = .error noOutput := rfl
  refine ⟨fails, ?_⟩
  rintro ⟨progress, ran, _⟩
  cases fails.symm.trans ran

end Orchestration
end BreadMind
