import BreadMind.Execution.Dict

namespace BreadMind
namespace Orchestration

open Execution

/-!
# Tasks, their results and the plans

A plan is a graph of tasks which the planner reads out of the answer of a
model.  What a subagent puts out is judged by a rule of its own, apart from the
flag that comes with it.
-/

structure TaskNode where
  id : String
  description : String
  role : String
  dependsOn : List String
  difficulty : String
  tools : List String
  expectedOutput : String
  maxRetries : Int
  deriving DecidableEq

/-- A plan; its nodes are in a dictionary under their ids. -/
structure TaskDAG where
  goal : String
  nodes : List TaskNode
  context : Dict String String
  distinct : (nodes.map TaskNode.id).Nodup
  deriving DecidableEq

def TaskDAG.ids (dag : TaskDAG) : List String := dag.nodes.map TaskNode.id

def TaskDAG.node (dag : TaskDAG) (id : String) : Option TaskNode :=
  dag.nodes.find? fun node => node.id == id

structure SubAgentResult where
  taskId : String
  success : Bool
  output : String
  turnsUsed : Nat := 0
  error : String := ""
  deriving DecidableEq

inductive EvalStatus where
  | normal
  | abnormal
  deriving DecidableEq

structure EvalResult where
  status : EvalStatus
  output : String
  failureReason : String := ""
  isTimeout : Bool := false

/-- The evaluator, with the letters which `strip` takes away. -/
structure ResultEvaluator where
  isSpace : Char -> Bool

def failureMark : String := "[success=False]"

namespace ResultEvaluator

variable (evaluator : ResultEvaluator)

def strip (text : List Char) : List Char :=
  ((text.dropWhile evaluator.isSpace).reverse.dropWhile evaluator.isSpace).reverse

def evaluate (output expectedOutput : String) : EvalResult :=
  if (evaluator.strip output.toList).isEmpty then
    { status := .abnormal
      output := output
      failureReason := "Empty output (expected: " ++ expectedOutput ++ ")" }
  else if failureMark.toList.isPrefixOf output.toList then
    { status := .abnormal
      output := output
      failureReason := String.ofList (evaluator.strip (output.toList.drop failureMark.length))
      isTimeout := output.toLower.toList.tails.any "timed out".toList.isPrefixOf }
  else { status := .normal, output := output }

def Accepts (node : TaskNode) (result : SubAgentResult) : Prop :=
  (evaluator.evaluate result.output node.expectedOutput).status = .normal

end ResultEvaluator

/-! ## The planner -/

structure PlannedNode where
  id : Option String := none
  description : Option String := none
  role : Option String := none
  dependsOn : Option (List String) := none
  difficulty : Option String := none
  expectedOutput : Option String := none
  maxRetries : Option Int := none

/-- What comes of asking the model for a plan: an exception, an answer that is no
JSON, or the nodes in it. -/
inductive PlannerReply where
  | raised
  | invalid
  | planned (nodes : List PlannedNode)

/-- `TaskNode(...)` with its defaults, in a plan that has so many nodes. -/
def PlannedNode.toTask (planned : PlannedNode) (count : Nat) : TaskNode where
  id := planned.id.getD ("task_" ++ toString (count + 1))
  description := planned.description.getD ""
  role := planned.role.getD "general_analyst"
  dependsOn := planned.dependsOn.getD []
  difficulty := planned.difficulty.getD "medium"
  tools := []
  expectedOutput := planned.expectedOutput.getD ""
  maxRetries := planned.maxRetries.getD 2

/-- The nodes with one more; a node with the same id gives up its place. -/
def insertNode (node : TaskNode) : List TaskNode -> List TaskNode
  | [] => [node]
  | first :: rest => if first.id = node.id then node :: rest else first :: insertNode node rest

theorem insertNode_ids (node : TaskNode) (nodes : List TaskNode) :
    (insertNode node nodes).map TaskNode.id =
      if node.id ∈ nodes.map TaskNode.id then nodes.map TaskNode.id
      else nodes.map TaskNode.id ++ [node.id] := by
  induction nodes with
  | nil => rfl
  | cons first rest ih =>
    unfold insertNode
    by_cases same : first.id = node.id
    · rw [if_pos same, List.map_cons, List.map_cons, same, if_pos List.mem_cons_self]
    · rw [if_neg same, List.map_cons, List.map_cons, ih]
      by_cases member : node.id ∈ rest.map TaskNode.id
      · rw [if_pos member, if_pos (List.mem_cons_of_mem _ member)]
      · rw [if_neg member, if_neg]
        · rfl
        · exact fun either => (List.mem_cons.mp either).elim (fun here => same here.symm) member

def TaskDAG.insert (dag : TaskDAG) (node : TaskNode) : TaskDAG where
  goal := dag.goal
  nodes := insertNode node dag.nodes
  context := dag.context
  distinct := by
    rw [insertNode_ids]
    split
    · exact dag.distinct
    case isFalse absent =>
      exact List.Nodup.append dag.distinct (List.nodup_singleton _) (List.disjoint_singleton.mpr absent)

variable (goal : String)

def TaskDAG.empty : TaskDAG := ⟨goal, [], [], List.nodup_nil⟩

def fallbackDag : TaskDAG :=
  (TaskDAG.empty goal).insert
    { id := "task_1"
      description := goal
      role := "general_analyst"
      dependsOn := []
      difficulty := "medium"
      tools := []
      expectedOutput := "Task result"
      maxRetries := 2 }

/-- `_parse_response`, for an answer that has come. -/
def parseResponse (planned : Option (List PlannedNode)) : TaskDAG :=
  match planned with
  | none | some [] => fallbackDag goal
  | some nodes =>
    nodes.foldl (fun dag node => dag.insert (node.toTask dag.nodes.length)) (TaskDAG.empty goal)

def plan : PlannerReply -> TaskDAG
  | .raised => fallbackDag goal
  | .invalid => parseResponse goal none
  | .planned nodes => parseResponse goal (some nodes)

/-- `replan`; without an answer there is nothing in the replacement. -/
def replan : PlannerReply -> TaskDAG
  | .raised => TaskDAG.empty goal
  | .invalid => parseResponse goal none
  | .planned nodes => parseResponse goal (some nodes)

variable {dag : TaskDAG}

theorem TaskDAG.node_mem {id : String} {node : TaskNode} (found : dag.node id = some node) :
    node ∈ dag.nodes ∧ node.id = id := by
  unfold TaskDAG.node at found
  have same := List.find?_some found
  exact ⟨List.mem_of_find?_eq_some found, LawfulBEq.eq_of_beq same⟩

theorem TaskDAG.node_of_mem {node : TaskNode} (member : node ∈ dag.nodes) :
    dag.node node.id = some node := by
  cases found : dag.node node.id with
  | none =>
    have absent := List.find?_eq_none.mp found node member
    exact (absent BEq.rfl).elim
  | some other =>
    have same := TaskDAG.node_mem found
    rw [List.inj_on_of_nodup_map dag.distinct same.1 member same.2]

end Orchestration
end BreadMind
