import BreadMind.Execution.Programs
import BreadMind.Orchestration.DagExecutor

namespace BreadMind
namespace Orchestration

open Execution
open Execution.Program

/-!
# Retries and replacements

After the plan has been executed, each node whose result is not a success is run
again, and if that does not help the planner is asked for a replacement.  One
table takes the results of all three phases.

An exception of a subagent that is run again ends everything, and so does a
subagent that is cancelled in an executor.
-/

structure Board (World : Type) where
  world : World
  results : Dict String SubAgentResult
  context : Dict String String
  log : List Entry

variable {World : Type}

abbrev BoardProgram (World Value : Type) := Program (Board World) PyError Value

def tabled (results : Dict String SubAgentResult) : List Entry :=
  results.map fun entry => Entry.wrote entry.1 entry.2 .own

def note (entry : Entry) : BoardProgram World PUnit :=
  modify fun board => { board with log := board.log ++ [entry] }

def write (id : String) (result : SubAgentResult) (writer : Writer) : BoardProgram World PUnit :=
  modify fun board => { board with
    results := board.results.set id result
    log := board.log ++ [.wrote id result writer] }

def addContext (id output : String) : BoardProgram World PUnit :=
  modify fun board => { board with context := board.context.set id output }

namespace Orchestrator

variable (orchestrator : Orchestrator World)

def retrySingle (node : TaskNode) : BoardProgram World SubAgentResult := do
  let board <- get
  let answered := orchestrator.spawn board.world node board.context
  modify fun board => { board with
    world := answered.2
    log := board.log ++ [.started .retry node] }
  match answered.1.finish with
  | .error error => do
    note (.ended .retry node none)
    throw error
  | .ok result => do
    note (.ended .retry node (some result))
    pure result

def retry (node : TaskNode) : Nat -> BoardProgram World PUnit
  | 0 => pure ⟨⟩
  | attempts + 1 => do
    let result <- orchestrator.retrySingle node
    write node.id result .own
    if result.success then addContext node.id result.output else retry node attempts

def runPlan (run : Run) (dag : TaskDAG) : BoardProgram World (Progress World) := do
  let board <- get
  match orchestrator.execute run dag board.world board.log with
  | .error stopped => do
    modify fun board => { board with world := stopped.world, log := stopped.log }
    throw stopped.error
  | .ok executed => do
    modify fun board => { board with world := executed.world, log := executed.log }
    pure executed

/-- The first success of the replacement counts for the node. -/
def adopt (tid : String) (alternative : TaskDAG) : BoardProgram World PUnit := do
  let executed <- orchestrator.runPlan (.alternative tid) alternative
  match executed.results.find? fun entry => entry.2.success with
  | none => pure ⟨⟩
  | some (altTid, altResult) => do
    write altTid altResult (.alternative tid)
    addContext altTid altResult.output
    write tid
      { taskId := tid
        success := true
        output := "Replaced by " ++ altTid ++ ": " ++ altResult.output
        turnsUsed := altResult.turnsUsed } .own

variable (dag : TaskDAG)

def replace (node : TaskNode) (output : String) : BoardProgram World PUnit := do
  let board <- get
  let reason := (orchestrator.evaluator.evaluate output node.expectedOutput).failureReason
  let replied := orchestrator.askPlanner board.world dag board.context node.id reason
  let alternative := replan dag.goal replied.1
  modify fun board => { board with
    world := replied.2
    log := board.log ++ [.replanned node.id alternative] }
  if alternative.nodes.isEmpty then pure ⟨⟩ else orchestrator.adopt node.id alternative

def recover (node : TaskNode) : BoardProgram World PUnit := do
  orchestrator.retry node node.maxRetries.toNat
  let board <- get
  match board.results.lookup node.id with
  | none => throw (.keyError node.id)
  | some result => if result.success then pure ⟨⟩ else orchestrator.replace dag node result.output

def recoverAll (dag : TaskDAG) : List String -> BoardProgram World PUnit
  | [] => pure ⟨⟩
  | tid :: rest =>
    match dag.node tid with
    | none => recoverAll dag rest
    | some node => do
      orchestrator.recover dag node
      recoverAll dag rest

/-- `failed_tasks`, as a snapshot of the first phase. -/
def failedTasks (results : Dict String SubAgentResult) : List String :=
  (results.filter fun entry => !entry.2.success).map Prod.fst

def executeWithFallback : BoardProgram World (Dict String SubAgentResult) := do
  let executed <- orchestrator.runPlan .first dag
  modify fun board => { board with
    results := executed.results
    context := executed.context
    log := board.log ++ tabled executed.results }
  orchestrator.recoverAll dag (failedTasks executed.results)
  let final <- get
  pure final.results

def carryOut (world : World) : Except PyError (Dict String SubAgentResult) × Board World :=
  (orchestrator.executeWithFallback dag).run.run ⟨world, [], dag.context, []⟩

end Orchestrator

def tableAt (log : List Entry) : Dict String SubAgentResult :=
  log.foldl (fun table entry =>
    match entry with
    | .wrote id result _ => table.set id result
    | _ => table) []

def Reported (log : List Entry) (id : String) : Prop :=
  ∃ result, (tableAt log).lookup id = some result ∧ result.success = true

variable (evaluator : ResultEvaluator)

/-- Every node of a replacement of the node has passed. -/
def Replaced (log : List Entry) (id : String) : Prop :=
  ∃ alternative, Entry.replanned id alternative ∈ log ∧ alternative.nodes ≠ [] ∧
    ∀ node ∈ alternative.nodes, Passed evaluator log (some id) node.id

variable (dag : TaskDAG)

/-- A run of the node itself has passed or a replacement of it has; a node outside
the plan has passed in some replacement. -/
def Succeeded (log : List Entry) (id : String) : Prop :=
  Passed evaluator log none id ∨ Replaced evaluator log id ∨
    (id ∉ dag.ids ∧ ∃ tid, Passed evaluator log (some tid) id)

def Met (log : List Entry) (run : Run) (dep : String) : Prop :=
  match run with
  | .alternative tid => Passed evaluator log (some tid) dep
  | _ => Succeeded evaluator dag log dep

/-- What the orchestrator promises for the log of a whole run. -/
structure Accountable (orchestrator : Orchestrator World) (dag : TaskDAG)
    (ended : Except PyError (Dict String SubAgentResult) × Board World) : Prop where
  answered : ∃ results, ended.1 = .ok results ∧ results = tableAt ended.2.log ∧
    ∀ node ∈ dag.nodes, ∃ result, results.lookup node.id = some result
  ordered : ∀ before run node after, ended.2.log = before ++ .started run node :: after ->
    ∀ dep ∈ node.dependsOn, Met orchestrator.evaluator dag before run dep
  earned : ∀ before id result writer after,
    ended.2.log = before ++ .wrote id result writer :: after -> result.success = true ->
      Succeeded orchestrator.evaluator dag before id
  untouched : ∀ before id result tid after,
    ended.2.log = before ++ .wrote id result (.alternative tid) :: after -> id ∈ dag.ids ->
      Not (Reported before id)
  resumed : ∀ early node later dep, ended.2.log = early ++ .skipped .first node :: later ->
    dep ∈ node.dependsOn -> Not (Succeeded orchestrator.evaluator dag early dep) ->
    Succeeded orchestrator.evaluator dag ended.2.log dep ->
      ∃ before after,
        ended.2.log = before ++ .started .retry node :: after ∧
          Succeeded orchestrator.evaluator dag before dep

/-- What a step is to be careful about: the flag of a result agrees with the
evaluator, a retry does not raise, no run is cancelled, a skipped node is run again only when the table
reports its dependencies, and a replacement counts only if all of it has passed,
under an id that is not that of another node of the plan. -/
def Careful (before : List Entry) : Entry -> Prop
  | .started run node => run = .retry -> Entry.skipped .first node ∈ before ->
      ∀ dep ∈ node.dependsOn, Reported before dep
  | .ended run node result => (run = .retry -> result ≠ none) ∧
      ∀ returned, result = some returned -> returned.success = true ->
        evaluator.Accepts node returned
  | .cancelled _ _ => False
  | .wrote id _ writer => ∀ tid, writer = .alternative tid ->
      (id ∈ dag.ids -> id = tid) ∧
        ∀ alternative, Entry.replanned tid alternative ∈ before ->
          ∀ node ∈ alternative.nodes, Passed evaluator before (some tid) node.id
  | _ => True

/-- Every step is careful, and a skipped node whose dependency succeeds later on may be retried. -/
structure Disciplined (log : List Entry) : Prop where
  careful : Each (Careful evaluator dag) log
  retried : ∀ early node later dep, log = early ++ .skipped .first node :: later ->
    dep ∈ node.dependsOn -> Not (Succeeded evaluator dag early dep) ->
    Succeeded evaluator dag log dep -> 0 < node.maxRetries

/-! ## The table and its log -/

section
variable {evaluator : ResultEvaluator} {dag : TaskDAG} {log later : List Entry} {id : String}

theorem Replaced.mono (replaced : Replaced evaluator log id) (grown : log <+: later) :
    Replaced evaluator later id := by
  rcases replaced with ⟨alternative, replanned, some, every⟩
  exact ⟨alternative, grown.subset replanned, some, fun node member => (every node member).mono grown⟩

theorem Succeeded.mono (succeeded : Succeeded evaluator dag log id) (grown : log <+: later) :
    Succeeded evaluator dag later id := by
  rcases succeeded with passed | replaced | ⟨outside, tid, passed⟩
  · exact .inl (passed.mono grown)
  · exact .inr (.inl (replaced.mono grown))
  · exact .inr (.inr ⟨outside, tid, passed.mono grown⟩)

theorem tableAt_wrote (result : SubAgentResult) (writer : Writer) :
    tableAt (log ++ [.wrote id result writer]) = (tableAt log).set id result := by
  unfold tableAt
  rw [List.foldl_append]
  rfl

theorem tableAt_append {more : List Entry}
    (quiet : ∀ entry ∈ more, ∀ id result writer, entry ≠ .wrote id result writer) :
    tableAt (log ++ more) = tableAt log := by
  unfold tableAt
  rw [List.foldl_append]
  generalize log.foldl _ [] = table
  induction more generalizing table with
  | nil => rfl
  | cons entry rest ih =>
    have others := ih (fun other member => quiet other (List.mem_cons_of_mem _ member))
    cases entry with
    | wrote id result writer => exact (quiet _ List.mem_cons_self id result writer rfl).elim
    | started | ended | cancelled | skipped | replanned => exact others table

theorem tableAt_tabled {results : Dict String SubAgentResult} (distinct : results.keys.Nodup)
    (empty : tableAt log = []) : tableAt (log ++ tabled results) = results := by
  have entries := Dict.foldl_set results [] distinct
  unfold tableAt at empty ⊢
  unfold tabled
  rw [List.foldl_append, empty, List.foldl_map]
  exact entries

theorem exists_wrote {result : SubAgentResult} (found : (tableAt log).lookup id = some result) :
    ∃ before writer after, log = before ++ .wrote id result writer :: after := by
  induction log using List.reverseRecOn with
  | nil => cases found
  | append_singleton log entry ih =>
    have older : (tableAt log).lookup id = some result -> ∃ before writer after, log ++ [entry] = before ++ .wrote id result writer :: after := by
      intro found
      rcases ih found with ⟨before, writer, after, split⟩
      refine ⟨before, writer, after ++ [entry], ?_⟩
      rw [split, List.append_assoc, List.cons_append]
    cases entry with
    | wrote other written writer =>
      rw [tableAt_wrote, Dict.lookup_set] at found
      split at found
      case isTrue same =>
        cases found
        rw [same]
        exact ⟨log, writer, [], rfl⟩
      case isFalse => exact older found
    | started | ended | cancelled | skipped | replanned =>
      rw [tableAt_append] at found
      · exact older found
      · intro entry member id result writer same
        rw [List.mem_singleton.mp member] at same
        cases same

def Right (evaluator : ResultEvaluator) (dag : TaskDAG) (before : List Entry) : Entry -> Prop
  | .started run node => ∀ dep ∈ node.dependsOn, Met evaluator dag before run dep
  | .wrote id result writer =>
    (result.success = true -> Succeeded evaluator dag before id) ∧
      (writer ≠ .own -> id ∈ dag.ids -> Not (Reported before id))
  | _ => True

theorem succeeded_of_reported (right : Each (Right evaluator dag) log) (reported : Reported log id) :
    Succeeded evaluator dag log id := by
  rcases reported with ⟨result, found, success⟩
  rcases exists_wrote found with ⟨before, writer, after, split⟩
  exact ((right _ _ _ split).1 success).mono ⟨_, split.symm⟩

end

/-! ## The invariant of the recovery -/

/-- What is known of the board while failed nodes are recovered; the nodes of the first
list have failed at first, and the entries of the second stay in the log. -/
structure Standing (failed : List String) (known : List Entry) (board : Board World) : Prop where
  table : board.results = tableAt board.log
  right : Each (Careful evaluator dag) board.log -> Each (Right evaluator dag) board.log
  answered : ∀ node ∈ dag.nodes,
    ∃ result, board.results.lookup node.id = some result
  seen : ∀ node ∈ dag.nodes,
    Entry.started .first node ∈ board.log ∨ Entry.skipped .first node ∈ board.log
  skips : ∀ node, Entry.skipped .first node ∈ board.log -> node ∈ dag.nodes ∧ node.id ∈ failed
  known : known ⊆ board.log

section
variable {evaluator : ResultEvaluator} {dag : TaskDAG} {failed : List String} {known : List Entry}
variable {board : Board World}

theorem Standing.keep {kept : List Entry} (standing : Standing evaluator dag failed known board)
    (fewer : kept ⊆ known) : Standing evaluator dag failed kept board :=
  { standing with known := List.Subset.trans fewer standing.known }

variable {entry : Entry}

theorem Standing.forget (standing : Standing evaluator dag failed (entry :: known) board) :
    Standing evaluator dag failed known board :=
  standing.keep (List.subset_cons_self entry known)

theorem Standing.recall (standing : Standing evaluator dag failed known board)
    (member : entry ∈ board.log) : Standing evaluator dag failed (entry :: known) board :=
  { standing with known := List.cons_subset.mpr ⟨member, standing.known⟩ }

theorem Standing.extend (standing : Standing evaluator dag failed known board) {more : List Entry}
    {world : World} {results : Dict String SubAgentResult} {context : Dict String String}
    (table : results = tableAt (board.log ++ more))
    (right : Each (Careful evaluator dag) (board.log ++ more) ->
      Each (Right evaluator dag) board.log -> EachAfter (Right evaluator dag) board.log more)
    (answered : ∀ node ∈ dag.nodes, ∃ result, results.lookup node.id = some result)
    (runs : ∀ node, Entry.skipped .first node ∉ more) :
    Standing evaluator dag failed known ⟨world, results, context, board.log ++ more⟩ := by
  have grown := List.prefix_append board.log more
  refine ⟨table, ?_, answered, ?_, ?_, fun entry member => grown.subset (standing.known member)⟩
  · intro careful
    have before := standing.right careful.of_append
    exact before.append (right careful before)
  · intro node member
    exact (standing.seen node member).imp (fun started => grown.subset started)
      (fun skipped => grown.subset skipped)
  · intro node skipped
    rcases List.mem_append.mp skipped with old | new
    · exact standing.skips node old
    · exact (runs node new).elim

theorem Standing.note (standing : Standing evaluator dag failed known board)
    (quiet : ∀ id result writer, entry ≠ .wrote id result writer)
    (runs : ∀ node, entry ≠ .skipped .first node)
    (right : Each (Careful evaluator dag) (board.log ++ [entry]) ->
      Each (Right evaluator dag) board.log -> Right evaluator dag board.log entry)
    (world : World) (context : Dict String String) : Standing evaluator dag failed known
      ⟨world, board.results, context, board.log ++ [entry]⟩ := by
  refine standing.extend ?_ (fun careful before => eachAfter_singleton (right careful before))
    standing.answered fun node new => runs node (List.mem_singleton.mp new).symm
  rw [standing.table, tableAt_append]
  intro other member id result writer
  rw [List.mem_singleton.mp member]
  exact quiet id result writer

theorem Standing.write (standing : Standing evaluator dag failed known board) {id : String}
    {result : SubAgentResult} {writer : Writer}
    (right : Each (Careful evaluator dag) (board.log ++ [.wrote id result writer]) ->
      Each (Right evaluator dag) board.log ->
        Right evaluator dag board.log (.wrote id result writer)) :
    Standing evaluator dag failed known { board with
        results := board.results.set id result
        log := board.log ++ [.wrote id result writer] } := by
  refine standing.extend ?_ (fun careful before => eachAfter_singleton (right careful before))
    (fun node member => Dict.lookup_set_some (standing.answered node member)) ?_
  · rw [tableAt_wrote, standing.table]
  · intro node new
    cases List.mem_singleton.mp new

theorem Standing.elsewhere (standing : Standing evaluator dag failed known board) (world : World)
    (context : Dict String String) :
    Standing evaluator dag failed known ⟨world, board.results, context, board.log⟩ :=
  ⟨standing.table, standing.right, standing.answered, standing.seen, standing.skips, standing.known⟩

variable {tid : String} {alternative : TaskDAG}

theorem Standing.execute (standing : Standing evaluator dag failed known board) {more : List Entry}
    (inOrder : EachAfter (InOrder evaluator (.alternative tid) alternative) board.log more)
    (world : World) : Standing evaluator dag failed known
      { board with world := world, log := board.log ++ more } := by
  refine standing.extend ?_ ?_ standing.answered ?_
  · rw [standing.table, tableAt_append]
    rintro entry member id result writer rfl
    rcases inOrder.of_mem member with ⟨_, impossible⟩
    exact impossible
  · intro _ _
    refine inOrder.imp ?_
    intro before entry ordered
    cases entry with
    | started run node =>
      rcases ordered with ⟨rfl, _, met⟩
      exact met
    | wrote => exact ordered.elim
    | ended | cancelled | skipped | replanned => exact trivial
  · intro node new
    rcases inOrder.of_mem new with ⟨_, impossible, _⟩
    cases impossible

theorem succeeded_of_ended {log : List Entry} (careful : Each (Careful evaluator dag) log) {run : Run}
    (inPlan : run.scope = none) {node : TaskNode} {result : SubAgentResult}
    (ended : Entry.ended run node (some result) ∈ log) (success : result.success = true) :
    Succeeded evaluator dag log node.id := by
  rcases careful.of_mem ended with ⟨_, _, _, agrees⟩
  exact .inl ⟨run, node, result, ended, inPlan, rfl, agrees result rfl success⟩

/-! ## What the parts of the recovery preserve -/

variable {orchestrator : Orchestrator World} {node : TaskNode}

abbrev Careless (evaluator : ResultEvaluator) (dag : TaskDAG) (_ : PyError) (board : Board World) :
    Prop :=
  Not (Each (Careful evaluator dag) board.log)

theorem ensures_runPlan (run : Run) (plan : TaskDAG) {before : Board World -> Prop}
    {after : Progress World -> Board World -> Prop}
    (goes : ∀ board executed, before board ->
      Executed orchestrator run plan board.log executed ->
        after executed { board with world := executed.world, log := executed.log }) :
    Ensures before (orchestrator.runPlan run plan) after (Careless evaluator dag) := by
  unfold Orchestrator.runPlan
  refine ensures_bind _ ensures_get ?_
  intro read
  have concluded := @execute_concluded _ orchestrator run plan read.world read.log
  generalize orchestrator.execute run plan read.world read.log = outcome at concluded ⊢
  cases outcome with
  | error stopped =>
    rcases concluded with ⟨node, cancelled⟩
    refine ensures_bind (fun _ => Careless evaluator dag stopped.error) ?_ fun _ => ?_
    · apply ensures_modify
      intro board _ careful
      rcases careful.of_mem cancelled with ⟨_, _, impossible⟩
      exact impossible
    · exact ensures_throw fun _ careless => careless
  | ok executed =>
    refine ensures_bind (fun _ => after executed) ?_ fun _ => ?_
    · apply ensures_modify
      rintro board ⟨holds, rfl⟩
      exact goes _ executed holds concluded
    · exact ensures_pure fun _ holds => holds

theorem ensures_retrySingle (inDag : node ∈ dag.nodes) :
    Ensures (Standing evaluator dag failed known) (orchestrator.retrySingle node)
      (fun result => Standing evaluator dag failed
        (.ended .retry node (some result) :: .started .retry node :: known))
      (Careless evaluator dag) := by
  unfold Orchestrator.retrySingle
  refine ensures_bind _ ensures_get ?_
  intro read
  refine ensures_bind (fun _ => Standing evaluator dag failed (.started .retry node :: known)) ?_ ?_
  · apply ensures_modify
    rintro board ⟨standing, rfl⟩
    refine Standing.recall (standing.note ?_ ?_ ?_ _ _) (List.mem_append_right _ List.mem_cons_self)
    · exact fun _ _ _ same => nomatch same
    · exact fun _ same => nomatch same
    · intro careful right dep depends
      rcases standing.seen node inDag with started | skipped
      · rcases right.of_mem started with ⟨before, grown, met⟩
        exact Succeeded.mono (met dep depends) grown
      · exact succeeded_of_reported right (careful.last rfl skipped dep depends)
  · intro _
    cases finish : (orchestrator.spawn read.world node read.context).1.finish with
    | error text =>
      refine ensures_bind (fun _ => Careless evaluator dag text) ?_ fun _ => ?_
      · apply ensures_modify
        intro board _ careful
        exact careful.last.1 rfl rfl
      · exact ensures_throw fun _ careless => careless
    | ok result =>
      refine ensures_bind (fun _ => Standing evaluator dag failed
        (.ended .retry node (some result) :: .started .retry node :: known)) ?_ fun _ => ?_
      · apply ensures_modify
        intro board standing
        refine Standing.recall (standing.note ?_ ?_ ?_ _ _)
          (List.mem_append_right _ List.mem_cons_self)
        · exact fun _ _ _ same => nomatch same
        · exact fun _ same => nomatch same
        · exact fun _ _ => trivial
      · exact ensures_pure fun _ standing => standing

theorem ensures_retry (inDag : node ∈ dag.nodes) (attempts : Nat) :
    Ensures (Standing evaluator dag failed known) (orchestrator.retry node attempts)
      (fun _ board => Standing evaluator dag failed known board ∧
        (0 < attempts -> Entry.started .retry node ∈ board.log)) (Careless evaluator dag) := by
  induction attempts generalizing known with
  | zero =>
    apply ensures_pure
    intro board standing
    exact ⟨standing, fun impossible => (Nat.lt_irrefl 0 impossible).elim⟩
  | succ attempts ih =>
    unfold Orchestrator.retry
    refine ensures_bind _ (ensures_retrySingle inDag) ?_
    intro result
    refine ensures_bind (fun _ => Standing evaluator dag failed (.started .retry node :: known)) ?_ ?_
    · apply ensures_modify
      intro board standing
      refine Standing.write (standing.forget) ?_
      intro careful _
      refine ⟨?_, fun other => (other rfl).elim⟩
      exact succeeded_of_ended careful.of_append rfl (standing.known List.mem_cons_self)
    · intro _
      have done : ∀ board : Board World,
          Standing evaluator dag failed (.started .retry node :: known) board ->
            Standing evaluator dag failed known board ∧
              (0 < attempts + 1 -> Entry.started .retry node ∈ board.log) := by
        intro board standing
        exact ⟨standing.forget, fun _ => standing.known List.mem_cons_self⟩
      split
      · apply ensures_modify
        intro board standing
        exact done _ (standing.elsewhere board.world _)
      · exact Ensures.weaken ih (fun _ standing => standing)
          (fun _ board holds => done board holds.1) (fun _ _ careless => careless)

def Lacking (id : String) (board : Board World) : Prop :=
  ∃ result, board.results.lookup id = some result ∧ result.success = false

theorem Lacking.not_reported {id : String} (lacking : Lacking id board)
    (table : board.results = tableAt board.log) : Not (Reported board.log id) := by
  rintro ⟨result, found, success⟩
  rcases lacking with ⟨other, there, unsuccessful⟩
  rw [table, found] at there
  cases there
  rw [success] at unsuccessful
  cases unsuccessful

def AllPassed (evaluator : ResultEvaluator) (dag : TaskDAG) (tid : String) (alternative : TaskDAG)
    (board : Board World) : Prop :=
  Each (Careful evaluator dag) board.log ->
    ∀ node ∈ alternative.nodes, Passed evaluator board.log (some tid) node.id

theorem right_alternative {altTid : String} {altResult : SubAgentResult}
    (standing : Standing evaluator dag failed (.replanned tid alternative :: known) board)
    (lacking : Lacking tid board) {altNode : TaskNode} (among : altNode ∈ alternative.nodes)
    (same : altNode.id = altTid)
    (careful : Careful evaluator dag board.log (.wrote altTid altResult (.alternative tid))) :
    Right evaluator dag board.log (.wrote altTid altResult (.alternative tid)) := by
  rcases careful tid rfl with ⟨itself, passed⟩
  have replanned := standing.known List.mem_cons_self
  constructor
  · intro _
    by_cases inPlan : altTid ∈ dag.ids
    · rw [itself inPlan]
      exact .inr (.inl ⟨alternative, replanned, List.ne_nil_of_mem among,
        passed alternative replanned⟩)
    · refine .inr (.inr ⟨inPlan, tid, ?_⟩)
      rw [← same]
      exact passed alternative replanned altNode among
  · intro _ inPlan
    rw [itself inPlan]
    exact lacking.not_reported standing.table

theorem ensures_adopt (some : alternative.nodes ≠ []) : Ensures (fun board =>
        Standing orchestrator.evaluator dag failed (.replanned tid alternative :: known) board ∧
          Lacking tid board)
      (orchestrator.adopt tid alternative)
      (fun _ => Standing orchestrator.evaluator dag failed known)
      (Careless orchestrator.evaluator dag) := by
  unfold Orchestrator.adopt
  refine ensures_bind (fun executed board =>
    (Standing orchestrator.evaluator dag failed (.replanned tid alternative :: known) board ∧
      Lacking tid board) ∧ ∀ id result, (id, result) ∈ executed.results ->
        ∃ node ∈ alternative.nodes, node.id = id) (ensures_runPlan _ _ ?_) ?_
  · rintro board executed ⟨standing, lacking⟩ carried
    rcases carried.written with ⟨more, log, inOrder⟩
    refine ⟨⟨?_, lacking⟩, fun id result entry => ?_⟩
    · rw [log]
      exact standing.execute inOrder _
    · rcases carried.backed id result entry with ⟨node, among, same, _⟩
      exact ⟨node, among, same⟩
  · intro executed
    refine ensures_of_fact fun among => ?_
    cases found : executed.results.find? fun entry => entry.2.success with
    | none => exact ensures_pure fun _ holds => holds.1.forget
    | some entry =>
      rcases entry with ⟨altTid, altResult⟩
      rcases among altTid altResult (List.mem_of_find?_eq_some found) with ⟨altNode, among, same⟩
      refine ensures_bind (fun _ board => Standing orchestrator.evaluator dag failed
        (.replanned tid alternative :: known) board ∧
          AllPassed orchestrator.evaluator dag tid alternative board) ?_ fun _ => ?_
      · apply ensures_modify
        rintro board ⟨standing, lacking⟩
        refine ⟨standing.write fun careful _ =>
          right_alternative standing lacking among same careful.last, ?_⟩
        intro careful node member
        exact ((careful.last tid rfl).2 alternative (standing.known List.mem_cons_self) node
          member).mono (List.prefix_append _ _)
      · refine ensures_bind (fun _ board => Standing orchestrator.evaluator dag failed
          (.replanned tid alternative :: known) board ∧
            AllPassed orchestrator.evaluator dag tid alternative board) ?_ fun _ => ?_
        · apply ensures_modify
          rintro board ⟨standing, passed⟩
          exact ⟨standing.elsewhere board.world _, passed⟩
        · apply ensures_modify
          rintro board ⟨standing, passed⟩
          refine standing.forget.write ?_
          intro careful _
          refine ⟨fun _ => ?_, fun other => (other rfl).elim⟩
          exact .inr (.inl ⟨alternative, standing.known List.mem_cons_self, some,
            passed careful.of_append⟩)

theorem ensures_replace (output : String) :
    Ensures (fun board => Standing orchestrator.evaluator dag failed known board ∧ Lacking node.id board)
      (orchestrator.replace dag node output)
      (fun _ => Standing orchestrator.evaluator dag failed known)
      (Careless orchestrator.evaluator dag) := by
  unfold Orchestrator.replace
  refine ensures_bind _ ensures_get ?_
  intro read
  dsimp only
  generalize orchestrator.askPlanner read.world dag read.context node.id _ = replied
  refine ensures_bind (fun _ board => Standing orchestrator.evaluator dag failed
    (.replanned node.id (replan dag.goal replied.1) :: known) board ∧ Lacking node.id board) ?_ ?_
  · apply ensures_modify
    rintro board ⟨⟨standing, lacking⟩, rfl⟩
    refine ⟨Standing.recall (standing.note ?_ ?_ ?_ _ _)
      (List.mem_append_right _ List.mem_cons_self), lacking⟩
    · exact fun _ _ _ same => nomatch same
    · exact fun _ same => nomatch same
    · exact fun _ _ => trivial
  · intro _
    split
    · exact ensures_pure fun _ holds => holds.1.forget
    case isFalse some => exact ensures_adopt fun none => some (List.isEmpty_iff.mpr none)

theorem ensures_recover (inDag : node ∈ dag.nodes) :
    Ensures (Standing orchestrator.evaluator dag failed known) (orchestrator.recover dag node)
      (fun _ board => Standing orchestrator.evaluator dag failed known board ∧
        (0 < node.maxRetries -> Entry.started .retry node ∈ board.log))
      (Careless orchestrator.evaluator dag) := by
  unfold Orchestrator.recover
  refine ensures_bind _ (ensures_retry inDag node.maxRetries.toNat) ?_
  intro _
  suffices rest : ∀ kept : List Entry,
      Ensures (Standing orchestrator.evaluator dag failed kept) _
        (fun _ => Standing orchestrator.evaluator dag failed kept)
        (Careless orchestrator.evaluator dag) by
    rintro board ⟨standing, retried⟩
    by_cases positive : 0 < node.maxRetries
    · have recalled := standing.recall (retried (by omega))
      refine Ensures.weaken (rest (.started .retry node :: known)) (fun _ holds => holds) ?_
        (fun _ _ careless => careless) board recalled
      exact fun _ _ after => ⟨after.forget, fun _ => after.known List.mem_cons_self⟩
    · refine Ensures.weaken (rest known) (fun _ holds => holds) ?_ (fun _ _ careless => careless)
        board standing
      exact fun _ _ after => ⟨after, fun retries => (positive retries).elim⟩
  intro kept
  refine ensures_bind _ ensures_get ?_
  intro read
  cases found : read.results.lookup node.id with
  | none =>
    rintro board ⟨standing, rfl⟩
    rcases standing.answered node inDag with ⟨result, there⟩
    rw [found] at there
    cases there
  | some result =>
    dsimp only
    split
    · exact ensures_pure fun _ holds => holds.1
    case isFalse unsuccessful =>
      refine Ensures.start (ensures_replace result.output) ?_
      rintro board ⟨standing, rfl⟩
      exact ⟨standing, result, found, Bool.not_eq_true _ ▸ unsuccessful⟩

theorem ensures_recoverAll (tids : List String) :
    Ensures (Standing orchestrator.evaluator dag failed known) (orchestrator.recoverAll dag tids)
      (fun _ board => Standing orchestrator.evaluator dag failed known board ∧
        ∀ node ∈ dag.nodes, node.id ∈ tids -> 0 < node.maxRetries ->
          Entry.started .retry node ∈ board.log) (Careless orchestrator.evaluator dag) := by
  induction tids generalizing known with
  | nil =>
    apply ensures_pure
    intro board standing
    exact ⟨standing, fun _ _ impossible => (List.not_mem_nil impossible).elim⟩
  | cons tid rest ih =>
    unfold Orchestrator.recoverAll
    cases found : dag.node tid with
    | none =>
      refine Ensures.weaken ih (fun _ holds => holds) ?_
        (fun _ _ careless => careless)
      rintro _ board ⟨standing, retried⟩
      refine ⟨standing, fun node inDag member positive => ?_⟩
      rcases List.mem_cons.mp member with same | later
      · rw [← same, TaskDAG.node_of_mem inDag] at found
        cases found
      · exact retried node inDag later positive
    | some failing =>
      have itself := TaskDAG.node_mem found
      have only : ∀ node ∈ dag.nodes, node.id = tid -> node = failing := by
        intro node inDag same
        exact List.inj_on_of_nodup_map dag.distinct inDag itself.1 (same.trans itself.2.symm)
      refine ensures_bind _ (ensures_recover itself.1) ?_
      rintro _ board ⟨standing, again⟩
      by_cases positive : 0 < failing.maxRetries
      · refine Ensures.weaken ih (fun _ holds => holds) ?_
          (fun _ _ careless => careless) board (standing.recall (again positive))
        rintro _ after ⟨kept, retried⟩
        refine ⟨kept.forget, fun node inDag member positive => ?_⟩
        rcases List.mem_cons.mp member with same | later
        · rw [only node inDag same]
          exact kept.known List.mem_cons_self
        · exact retried node inDag later positive
      · refine Ensures.weaken ih (fun _ holds => holds) ?_
          (fun _ _ careless => careless) board standing
        rintro _ after ⟨kept, retried⟩
        refine ⟨kept, fun node inDag member retries => ?_⟩
        rcases List.mem_cons.mp member with same | later
        · rw [only node inDag same] at retries
          exact (positive retries).elim
        · exact retried node inDag later retries

theorem standing_first {progress : Progress World}
    (executed : Executed orchestrator .first dag [] progress) : Standing orchestrator.evaluator dag
      (Orchestrator.failedTasks progress.results) []
      { world := progress.world
        results := progress.results
        context := progress.context
        log := progress.log ++ tabled progress.results } := by
  rcases executed.written with ⟨more, log, inOrder⟩
  rw [List.nil_append] at log
  have grown := List.prefix_append progress.log (tabled progress.results)
  have fromFirst : ∀ entry ∈ progress.log,
      ∃ before, InOrder orchestrator.evaluator .first dag before entry := by
    intro entry member
    rw [log] at member
    exact inOrder.of_mem member
  refine ⟨?_, ?_, ?_, ?_, ?_, List.nil_subset _⟩
  · refine (tableAt_tabled executed.keys ?_).symm
    rw [← List.nil_append progress.log, tableAt_append]
    · rfl
    · rintro entry member id result writer rfl
      rcases fromFirst _ member with ⟨_, impossible⟩
      exact impossible
  · intro careful
    refine Each.append ?_ (eachAfter_of_forall ?_)
    · intro before entry after split
      have ordered := inOrder before entry after (log.symm.trans split)
      cases entry with
      | started run node =>
        rcases ordered with ⟨rfl, _, met⟩
        exact fun dep depends => .inl (met dep depends)
      | wrote => exact ordered.elim
      | ended | cancelled | skipped | replanned => exact trivial
    · intro entry member later grown
      rcases List.mem_map.mp member with ⟨⟨id, result⟩, among, rfl⟩
      refine ⟨?_, fun other => (other rfl).elim⟩
      intro success
      rcases executed.backed id result among with ⟨node, _, same, backed⟩
      rw [← same]
      exact Succeeded.mono (succeeded_of_ended careful.of_append rfl (backed success) success) grown
  · exact fun node inDag => (executed.answered node inDag).1
  · intro node inDag
    exact (executed.answered node inDag).2.imp (fun started => grown.subset started)
      (fun skipped => grown.subset skipped)
  · intro node skipped
    rcases List.mem_append.mp skipped with old | new
    · rcases fromFirst _ old with ⟨_, _, inDag⟩
      refine ⟨inDag, ?_⟩
      rcases executed.skipped node old with impossible | ⟨result, found, unsuccessful⟩
      · cases impossible
      · refine List.mem_map.mpr ⟨(node.id, result), List.mem_filter.mpr ⟨Dict.mem_of_lookup found, ?_⟩, rfl⟩
        rw [unsuccessful]
        rfl
    · rcases List.mem_map.mp new with ⟨_, _, impossible⟩
      cases impossible

theorem ensures_executeWithFallback (world : World) :
    Ensures (fun board : Board World => board = ⟨world, [], dag.context, []⟩)
      (orchestrator.executeWithFallback dag) (fun results board => results = board.results ∧
        (∃ failed, Standing orchestrator.evaluator dag failed [] board ∧
          ∀ node ∈ dag.nodes, node.id ∈ failed -> 0 < node.maxRetries ->
            Entry.started .retry node ∈ board.log)) (Careless orchestrator.evaluator dag) := by
  unfold Orchestrator.executeWithFallback
  refine ensures_bind (fun executed board => board.log = executed.log ∧
    board.world = executed.world ∧ Executed orchestrator .first dag [] executed)
    (ensures_runPlan _ _ ?_) ?_
  · rintro board executed rfl carried
    exact ⟨rfl, rfl, carried⟩
  · intro executed
    refine ensures_bind (fun _ => Standing orchestrator.evaluator dag
      (Orchestrator.failedTasks executed.results) []) ?_ fun _ => ?_
    · apply ensures_modify
      rintro board ⟨log, ran, carried⟩
      rw [log, ran]
      exact standing_first carried
    · refine ensures_bind _ (ensures_recoverAll _) ?_
      rintro _ board holds
      exact ⟨rfl, _, holds⟩

end

/-- In every run whose steps are all careful the orchestrator keeps its claims. -/
theorem carryOut_accountable (orchestrator : Orchestrator World) (dag : TaskDAG) (world : World)
    (disciplined : Disciplined orchestrator.evaluator dag (orchestrator.carryOut dag world).2.log) :
    Accountable orchestrator dag (orchestrator.carryOut dag world) := by
  have ends := @ensures_executeWithFallback _ dag orchestrator world _ rfl
  unfold Orchestrator.carryOut at disciplined ⊢
  generalize (orchestrator.executeWithFallback dag).run.run ⟨world, [], dag.context, []⟩ = ended at *
  rcases ended with ⟨result, board⟩
  cases result with
  | error text => exact (ends disciplined.careful).elim
  | ok results =>
    rcases ends with ⟨rfl, failed, standing, retried⟩
    have right := standing.right disciplined.careful
    have ordered : ∀ before run node after,
        board.log = before ++ .started run node :: after -> ∀ dep ∈ node.dependsOn,
          Met orchestrator.evaluator dag before run dep :=
      fun before run node after split => right before _ after split
    refine ⟨⟨_, rfl, standing.table, standing.answered⟩, ordered, ?_, ?_, ?_⟩
    · exact fun before id result writer after split => (right before _ after split).1
    · intro before id result tid after split
      exact (right before _ after split).2 fun same => nomatch same
    · intro early node later dep split depends lacking succeeded
      have positive := disciplined.retried early node later dep split depends lacking succeeded
      have skipped : Entry.skipped .first node ∈ board.log := by
        rw [split]
        exact List.mem_append_right early List.mem_cons_self
      have skips := standing.skips node skipped
      rcases List.append_of_mem (retried node skips.1 skips.2 positive) with ⟨before, after, again⟩
      exact ⟨before, after, again, ordered before .retry node after again dep depends⟩

def scripted : Orchestrator (List SubAgentResult) where
  evaluator := ⟨Char.isWhitespace⟩
  spawn world node _ :=
    match world with
    | [] => (⟨.error (.raised "RuntimeError" "no answer"), false⟩, [])
    | result :: rest => (⟨.ok { result with taskId := node.id }, false⟩, rest)
  arrange _ nodes := nodes
  arranged _ nodes := List.Perm.refl nodes
  askPlanner world _ _ _ _ := (.raised, world)

def checkNode (maxRetries : Int) : TaskNode where
  id := "check"
  description := "Check the pods"
  role := "k8s_diagnostician"
  dependsOn := []
  difficulty := "low"
  tools := []
  expectedOutput := "Pod list"
  maxRetries := maxRetries

def repairNode : TaskNode where
  id := "repair"
  description := "Repair the pods"
  role := "k8s_executor"
  dependsOn := ["check"]
  difficulty := "medium"
  tools := []
  expectedOutput := "Pods repaired"
  maxRetries := 2

def repairPlan (maxRetries : Int) : TaskDAG :=
  ⟨"Repair the cluster", [checkNode maxRetries, repairNode], [],
    (by decide : ["check", "repair"].Nodup)⟩

def refused : SubAgentResult := ⟨"check", false, "[success=False] LLM error: refused", 1, "refused"⟩
def answer : SubAgentResult := ⟨"", true, "done", 1, ""⟩

/-- The check fails at first and succeeds when it is retried; then the repair is run. -/
theorem repair_accountable :
    Accountable scripted (repairPlan 2) (scripted.carryOut (repairPlan 2) [refused, answer, answer]) := by
  have log : (scripted.carryOut (repairPlan 2) [refused, answer, answer]).2.log =
      [.started .first (checkNode 2), .ended .first (checkNode 2) (some refused),
        .skipped .first repairNode, .wrote "check" refused .own,
        .wrote "repair" (skippedResult repairNode) .own,
        .started .retry (checkNode 2), .ended .retry (checkNode 2) (some { answer with taskId := "check" }),
        .wrote "check" { answer with taskId := "check" } .own,
        .started .retry repairNode, .ended .retry repairNode (some { answer with taskId := "repair" }),
        .wrote "repair" { answer with taskId := "repair" } .own] := by
    decide +kernel
  apply carryOut_accountable
  rw [log]
  have accepted : ∀ id node, scripted.evaluator.Accepts node { answer with taskId := id } := by
    intro id node
    have words : Not ((scripted.evaluator.strip "done".toList).isEmpty = true) := by decide +kernel
    have unmarked : Not (failureMark.toList.isPrefixOf "done".toList = true) := by decide +kernel
    change (scripted.evaluator.evaluate "done" node.expectedOutput).status = .normal
    unfold ResultEvaluator.evaluate
    rw [if_neg words, if_neg unmarked]
  constructor
  · refine each_of_allHold ⟨?_, ?_, trivial, ?_, ?_, ?_, ?_, ?_, ?_, ?_, ?_, trivial⟩
    · exact fun impossible => nomatch impossible
    · exact ⟨fun impossible => (nomatch impossible), fun returned same success => by
        cases same
        cases success⟩
    · exact fun _ impossible => nomatch impossible
    · exact fun _ impossible => nomatch impossible
    · exact fun _ _ dep depends => (List.not_mem_nil depends).elim
    · exact ⟨fun _ impossible => (nomatch impossible), fun returned same _ => by
        cases same
        exact accepted _ _⟩
    · exact fun _ impossible => nomatch impossible
    · intro _ _ dep depends
      rw [List.mem_singleton.mp depends]
      exact ⟨{ answer with taskId := "check" }, by decide +kernel, rfl⟩
    · exact ⟨fun _ impossible => (nomatch impossible), fun returned same _ => by
        cases same
        exact accepted _ _⟩
    · exact fun _ impossible => nomatch impossible
  · intro early node later dep split _ _ _
    have skipped : Entry.skipped .first node ∈ early ++ .skipped .first node :: later :=
      List.mem_append_right early List.mem_cons_self
    rw [← split] at skipped
    have same : node = repairNode := by simpa using skipped
    rw [same]
    decide

/-- The check fails and may not be retried, the replacement is empty, and still the
repair, which was skipped, is run. -/
theorem repair_unaccountable :
    Not (Accountable scripted (repairPlan 0) (scripted.carryOut (repairPlan 0) [refused, answer])) := by
  intro accountable
  have log : (scripted.carryOut (repairPlan 0) [refused, answer]).2.log =
      [.started .first (checkNode 0), .ended .first (checkNode 0) (some refused),
        .skipped .first repairNode, .wrote "check" refused .own,
        .wrote "repair" (skippedResult repairNode) .own,
        .replanned "check" (TaskDAG.empty "Repair the cluster")] ++
      .started .retry repairNode :: [.ended .retry repairNode (some { answer with taskId := "repair" }),
        .wrote "repair" { answer with taskId := "repair" } .own] := by
    decide +kernel
  have met := accountable.ordered _ _ _ _ log "check" List.mem_cons_self
  rcases met with ⟨run, node, result, ended, _, _, accepted⟩ |
    ⟨alternative, replanned, some, _⟩ | ⟨outside, _⟩
  · have same : run = .first ∧ node = checkNode 0 ∧ result = refused := by simpa using ended
    rw [same.2.1, same.2.2] at accepted
    revert accepted
    unfold ResultEvaluator.Accepts
    decide +kernel
  · have same : alternative = TaskDAG.empty "Repair the cluster" := by simpa using replanned
    rw [same] at some
    exact some rfl
  · exact outside List.mem_cons_self

end Orchestration
end BreadMind
