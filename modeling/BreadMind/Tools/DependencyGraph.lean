import Mathlib.Data.List.Sort
import Mathlib.Data.String.Basic
import BreadMind.Base.Values
import BreadMind.Execution.BreadthFirst
import BreadMind.Execution.Dict
import BreadMind.Execution.Machine

namespace BreadMind
namespace Tools

open Execution Relation

/-!
# The graph of dependencies

Each node holds the names it depends on and the names that depend on it.  An
edge is thus stored twice, and three operations write both places.  A name may
be depended on before there is a node of this name.
-/

inductive NodeType where
  | tool
  | skill
  | mcpServer
  | plugin
  deriving DecidableEq

structure DependencyNode where
  name : String
  type : NodeType
  dependsOn : List String := []
  dependedBy : List String := []
  deriving DecidableEq

structure DependencyCheck where
  canRemove : Bool
  blockedBy : List String := []
  message : String := ""

abbrev DependencyGraph := Dict String DependencyNode

def sorted (names : List String) : List String := names.insertionSort (· ≤ ·)

namespace DependencyNode

/-- Append a dependent that is not listed yet. -/
def addDependent (name : String) (node : DependencyNode) : DependencyNode :=
  if name ∈ node.dependedBy then node
  else { node with dependedBy := node.dependedBy ++ [name] }

/-- `depended_by.remove`, of a dependent that is listed. -/
def removeDependent (name : String) (node : DependencyNode) : DependencyNode :=
  { node with dependedBy := node.dependedBy.erase name }

def addDependency (dependsOn : String) (node : DependencyNode) : DependencyNode :=
  { node with dependsOn := node.dependsOn ++ [dependsOn] }

end DependencyNode

namespace DependencyGraph

variable (graph : DependencyGraph)

variable (name : String)

def notFound : String := "Node '" ++ name ++ "' not found"

def getDependencies : List String :=
  match graph.lookup name with
  | none => []
  | some node => node.dependsOn

def getDependents : List String :=
  match graph.lookup name with
  | none => []
  | some node => node.dependedBy

theorem getDependencies_of_not_mem {name : String} (absent : name ∉ graph.keys) :
    graph.getDependencies name = [] := by
  have nothing : graph.lookup name = none := by
    refine List.lookup_eq_none_iff.mpr fun entry member => ?_
    exact bne_iff_ne.mpr fun same => absent (same ▸ List.mem_map_of_mem member)
  unfold getDependencies
  rw [nothing]

def network : Network String where
  next := graph.getDependencies
  inner := graph.keys
  leaf := fun _ absent => graph.getDependencies_of_not_mem absent

def getAllDependencies : List String :=
  sorted (graph.network.search [] (graph.getDependencies name))

def checkRemoval : DependencyCheck :=
  match graph.lookup name with
  | none => { canRemove := false, message := notFound name }
  | some node =>
    if node.dependedBy ≠ [] then
      { canRemove := false
        blockedBy := node.dependedBy
        message := "Cannot remove '" ++ name ++ "': depended on by " ++
          ", ".intercalate node.dependedBy }
    else { canRemove := true, message := "'" ++ name ++ "' can be removed" }

def addNode (nodeType : NodeType) (dependsOn : Option (List String)) :
    Except PyError DependencyGraph :=
  if (graph.lookup name).isSome = true then
    .error (.valueError ("Node '" ++ name ++ "' already exists"))
  else
    let node : DependencyNode := { name, type := nodeType, dependsOn := dependsOn.getD [] }
    .ok (node.dependsOn.foldl
      (fun graph dep => Dict.update dep (DependencyNode.addDependent name) graph)
      (Dict.set name node graph))

def removeNode : Bool × DependencyGraph :=
  if (graph.checkRemoval name).canRemove = true then
    (true, (graph.getDependencies name).foldl
      (fun graph dep => Dict.update dep (DependencyNode.removeDependent name) graph)
      (Dict.pop name graph))
  else (false, graph)

def addDependency (dependsOn : String) : Except PyError DependencyGraph :=
  if (graph.lookup name).isSome = false then .error (.keyError (notFound name))
  else if (graph.lookup dependsOn).isSome = false then .error (.keyError (notFound dependsOn))
  else if dependsOn ∈ graph.getDependencies name then .ok graph
  else if name ∈ graph.getAllDependencies dependsOn then
    .error (.raised "CyclicDependencyError"
      ("Adding dependency " ++ name ++ " -> " ++ dependsOn ++ " would create a cycle"))
  else
    .ok (Dict.update dependsOn (DependencyNode.addDependent name)
      (Dict.update name (DependencyNode.addDependency dependsOn) graph))

inductive Operation where
  | addNode (name : String) (nodeType : NodeType) (dependsOn : Option (List String))
  | removeNode (name : String)
  | addDependency (name dependsOn : String)

def perform : Operation -> DependencyGraph
  | .addNode name nodeType dependsOn => (graph.addNode name nodeType dependsOn).toOption.getD graph
  | .removeNode name => (graph.removeNode name).2
  | .addDependency name dependsOn => (graph.addDependency name dependsOn).toOption.getD graph

def machine : Machine DependencyGraph Operation where
  initial := []
  step := perform

end DependencyGraph
end Tools
end BreadMind
