import Mathlib.Tactic.Tauto
import BreadMind.Tools.DependencyGraph

namespace BreadMind
namespace Tools
namespace DependencyGraph

open Execution Relation

/-!
# Edges and their inverses

What the operations do is said of three relations: which names have a node,
which names a node depends on, and which names it lists as its dependents.
-/

def Present (graph : DependencyGraph) (name : String) : Prop :=
  ∃ node, graph.lookup name = some node

/-- `name` lists `target` in its `depends_on`. -/
def Depends (graph : DependencyGraph) (name target : String) : Prop :=
  ∃ node, graph.lookup name = some node ∧ target ∈ node.dependsOn

/-- `target` lists `name` in its `depended_by`. -/
def Listed (graph : DependencyGraph) (target name : String) : Prop :=
  ∃ node, graph.lookup target = some node ∧ name ∈ node.dependedBy

def Edge (graph : DependencyGraph) (name target : String) : Prop :=
  graph.Depends name target ∧ graph.Present target

def Once (graph : DependencyGraph) : Prop :=
  ∀ name node, graph.lookup name = some node -> node.dependedBy.Nodup

variable {graph next : DependencyGraph} {name dependsOn : String}

variable {target : String}

theorem Depends.present (depends : graph.Depends name target) : graph.Present name :=
  depends.imp fun _ => And.left

theorem Listed.present (listed : graph.Listed target name) : graph.Present target :=
  listed.imp fun _ => And.left

theorem isSome_iff_present : (graph.lookup name).isSome = true <-> graph.Present name :=
  Option.isSome_iff_exists

theorem isSome_eq_false_iff : (graph.lookup name).isSome = false <-> Not (graph.Present name) := by
  rw [← isSome_iff_present, Bool.not_eq_true]

theorem mem_getDependencies :
    target ∈ graph.getDependencies name <-> graph.Depends name target := by
  unfold getDependencies Depends
  cases graph.lookup name with
  | none => simp
  | some node => simp

theorem mem_getDependents : name ∈ graph.getDependents target <-> graph.Listed target name := by
  unfold getDependents Listed
  cases graph.lookup target with
  | none => simp
  | some node => simp

section Dependents

variable {node : DependencyNode} {other : String}

theorem mem_addDependent :
    other ∈ (node.addDependent name).dependedBy <-> other ∈ node.dependedBy ∨ other = name := by
  unfold DependencyNode.addDependent
  split
  case isTrue listed =>
    refine ⟨Or.inl, fun either => either.elim id ?_⟩
    rintro rfl
    exact listed
  case isFalse => simp

theorem nodup_addDependent (once : node.dependedBy.Nodup) :
    (node.addDependent name).dependedBy.Nodup := by
  unfold DependencyNode.addDependent
  split
  case isTrue => exact once
  case isFalse new =>
    exact once.append (List.nodup_singleton name) (List.disjoint_singleton.mpr new)

theorem dependsOn_addDependent : (node.addDependent name).dependsOn = node.dependsOn := by
  unfold DependencyNode.addDependent
  split <;> rfl

theorem addDependent_iterate (count : Nat) :
    ((DependencyNode.addDependent name)^[count] node).dependsOn = node.dependsOn ∧
      (node.dependedBy.Nodup ->
        ((DependencyNode.addDependent name)^[count] node).dependedBy.Nodup) ∧
      (other ∈ ((DependencyNode.addDependent name)^[count] node).dependedBy <->
        other ∈ node.dependedBy ∨ (other = name ∧ 0 < count)) := by
  induction count with
  | zero => simp
  | succ count ih =>
    rcases ih with ⟨same, once, members⟩
    rw [Function.iterate_succ_apply', dependsOn_addDependent, mem_addDependent, members]
    refine ⟨same, fun before => nodup_addDependent (once before), ?_⟩
    have positive : 0 < count + 1 := Nat.succ_pos count
    tauto

theorem removeDependent_iterate (once : node.dependedBy.Nodup) (count : Nat) :
    ((DependencyNode.removeDependent name)^[count] node).dependsOn = node.dependsOn ∧
      ((DependencyNode.removeDependent name)^[count] node).dependedBy.Nodup ∧
      (other ∈ ((DependencyNode.removeDependent name)^[count] node).dependedBy <->
        other ∈ node.dependedBy ∧ Not (other = name ∧ 0 < count)) := by
  induction count with
  | zero => simp [once]
  | succ count ih =>
    rcases ih with ⟨same, once, members⟩
    rw [Function.iterate_succ_apply']
    unfold DependencyNode.removeDependent at *
    refine ⟨same, once.erase name, ?_⟩
    rw [once.mem_erase_iff, members]
    have positive : 0 < count + 1 := Nat.succ_pos count
    tauto

end Dependents

/-! ## What each operation does -/

theorem addNode_ok {nodeType : NodeType} {given : Option (List String)}
    (added : graph.addNode name nodeType given = .ok next) : Not (graph.Present name) ∧
    (∀ other, next.Present other <-> other = name ∨ graph.Present other) ∧
    (∀ source target, next.Depends source target <->
      (source = name ∧ target ∈ given.getD []) ∨ graph.Depends source target) ∧
    (∀ target source, next.Listed target source <-> graph.Listed target source ∨
        (source = name ∧ target ∈ given.getD [] ∧ next.Present target)) ∧
    (graph.Once -> next.Once) := by
  unfold addNode at added
  split at added
  case isTrue => exact nomatch added
  case isFalse free =>
  have absent : Not (graph.Present name) := fun present => free (isSome_iff_present.mpr present)
  have nothing : graph.lookup name = none := by
    refine Option.eq_none_iff_forall_not_mem.mpr fun node found => absent ⟨node, found⟩
  have step := Except.ok.inj added
  dsimp only at step
  have lookup : ∀ other, next.lookup other =
      (if other = name then some ⟨name, nodeType, given.getD [], []⟩ else graph.lookup other).map
        (DependencyNode.addDependent name)^[(given.getD []).count other] := by
    intro other
    rw [← step, Dict.lookup_foldl_update, Dict.lookup_set]
  have there : ∀ other, next.Present other <-> other = name ∨ graph.Present other := by
    intro other
    unfold Present
    rw [lookup]
    by_cases same : other = name
    · simp [same]
    · simp [same]
  refine ⟨absent, there, ?_, ?_, ?_⟩
  · intro source target
    unfold Depends
    rw [lookup]
    by_cases same : source = name
    · simp [same, nothing, (@addDependent_iterate name _ name _).1]
    · simp [same, (@addDependent_iterate name _ name _).1]
  · intro target source
    rw [there]
    unfold Listed
    rw [lookup]
    by_cases same : target = name
    · simp [same, nothing, (addDependent_iterate _).2.2, List.count_pos_iff]
    · cases found : graph.lookup target with
      | none => simp [same, Present, found]
      | some node => simp [same, Present, found, (addDependent_iterate _).2.2, List.count_pos_iff]
  · intro once other node found
    rw [lookup] at found
    rcases Option.map_eq_some_iff.mp found with ⟨before, old, rfl⟩
    refine (@addDependent_iterate name _ name _).2.1 ?_
    split at old
    · rw [← Option.some.inj old]
      exact List.nodup_nil
    · exact once other before old

theorem canRemove_iff : (graph.checkRemoval name).canRemove = true <->
    graph.Present name ∧ ∀ source, Not (graph.Listed name source) := by
  unfold checkRemoval Present Listed
  cases graph.lookup name with
  | none => simp
  | some node =>
    dsimp only
    split
    case isTrue some_ => simpa [List.eq_nil_iff_forall_not_mem] using some_
    case isFalse none_ =>
      rw [Decidable.not_not] at none_
      simp [none_]

theorem removeNode_eq (once : graph.Once) : ((graph.removeNode name).1 = true <->
      graph.Present name ∧ ∀ source, Not (graph.Listed name source)) ∧
    ((graph.removeNode name).1 = false -> (graph.removeNode name).2 = graph) ∧
    ((graph.removeNode name).1 = true -> (∀ other, (graph.removeNode name).2.Present other <->
        other ≠ name ∧ graph.Present other) ∧
      (∀ source target, (graph.removeNode name).2.Depends source target <->
        source ≠ name ∧ graph.Depends source target) ∧
      (∀ target source, (graph.removeNode name).2.Listed target source <->
        target ≠ name ∧ graph.Listed target source ∧
          Not (source = name ∧ graph.Depends name target)) ∧ (graph.removeNode name).2.Once) := by
  unfold removeNode
  split
  case isFalse kept =>
    refine ⟨⟨fun removed => (nomatch removed), fun free => ?_⟩, fun _ => rfl,
      fun removed => (nomatch removed)⟩
    exact absurd (canRemove_iff.mpr free) kept
  case isTrue free =>
  refine ⟨⟨fun _ => canRemove_iff.mp free, fun _ => rfl⟩, fun kept => (nomatch kept), ?_⟩
  intro _
  dsimp only
  generalize built : List.foldl _ _ _ = next
  have lookup : ∀ other, next.lookup other =
      if other = name then none else (graph.lookup other).map
        (DependencyNode.removeDependent name)^[(graph.getDependencies name).count other] := by
    intro other
    rw [← built, Dict.lookup_foldl_update]
    by_cases same : other = name
    · rw [if_pos same, same, Dict.lookup_pop_self]
      rfl
    · rw [if_neg same, Dict.lookup_pop_of_ne graph same]
  refine ⟨?_, ?_, ?_, ?_⟩
  · intro other
    unfold Present
    rw [lookup]
    by_cases same : other = name
    · simp [same]
    · simp [same]
  · intro source target
    unfold Depends
    rw [lookup]
    by_cases same : source = name
    · simp [same]
    · cases found : graph.lookup source with
      | none => simp [same]
      | some node => simp [same, (@removeDependent_iterate name _ name (once _ _ found) _).1]
  · intro target source
    unfold Listed
    rw [lookup]
    by_cases same : target = name
    · simp [same]
    · cases found : graph.lookup target with
      | none => simp [same]
      | some node =>
        simp [same, (removeDependent_iterate (once _ _ found) _).2.2, List.count_pos_iff,
          mem_getDependencies]
  · intro other node found
    rw [lookup] at found
    split at found
    · cases found
    · rcases Option.map_eq_some_iff.mp found with ⟨before, old, rfl⟩
      exact (@removeDependent_iterate name _ name (once _ _ old) _).2.1

theorem mem_getAllDependencies {other : String} :
    other ∈ graph.getAllDependencies name <-> TransGen graph.Depends name other := by
  have same : Lists graph.getDependencies = graph.Depends := by
    funext source target
    exact propext mem_getDependencies
  unfold getAllDependencies sorted
  rw [List.mem_insertionSort, Network.mem_search]
  change Reached (Lists graph.getDependencies) _ other <-> _
  rw [same, TransGen.head'_iff]
  exact exists_congr fun start => and_congr_left fun _ => mem_getDependencies

theorem exists_lookup_update {change : DependencyNode -> DependencyNode} {key other : String}
    {holds : DependencyNode -> Prop} :
    (∃ node, (Dict.update key change graph).lookup other = some node ∧ holds node) <->
      ∃ node, graph.lookup other = some node ∧
        holds (if other = key then change node else node) := by
  rw [Dict.lookup_update]
  split
  · simp only [Option.map_eq_some_iff, exists_exists_and_eq_and]
  · rfl

variable {key : String}

theorem present_update {change : DependencyNode -> DependencyNode} {other : String} :
    Present (Dict.update key change graph) other <-> graph.Present other := by
  have same := @exists_lookup_update graph change key other fun _ => True
  simp only [and_true] at same
  exact same

theorem once_update {change : DependencyNode -> DependencyNode}
    (kept : ∀ node, node.dependedBy.Nodup -> (change node).dependedBy.Nodup)
    (once : graph.Once) : DependencyGraph.Once (Dict.update key change graph) := by
  intro other node found
  rw [Dict.lookup_update] at found
  split at found
  · rcases Option.map_eq_some_iff.mp found with ⟨before, old, rfl⟩
    exact kept before (once other before old)
  · exact once other node found

variable {source : String}

theorem depends_addDependent :
    Depends (Dict.update key (DependencyNode.addDependent name) graph) source target <->
      graph.Depends source target := by
  unfold Depends
  rw [exists_lookup_update]
  refine exists_congr fun node => and_congr_right fun _ => ?_
  split
  · rw [dependsOn_addDependent]
  · rfl

theorem listed_addDependent :
    Listed (Dict.update key (DependencyNode.addDependent name) graph) target source <->
      graph.Listed target source ∨ (source = name ∧ target = key ∧ graph.Present key) := by
  unfold Listed Present
  rw [exists_lookup_update]
  by_cases same : target = key
  · subst same
    simp only [if_true, mem_addDependent, and_or_left, exists_or, exists_and_right, true_and]
    exact or_congr_right and_comm
  · simp only [same, if_false, false_and, and_false, or_false]

theorem depends_addDependency :
    Depends (Dict.update key (DependencyNode.addDependency dependsOn) graph) source target <->
      graph.Depends source target ∨ (source = key ∧ target = dependsOn ∧ graph.Present key) := by
  unfold Depends Present
  rw [exists_lookup_update]
  by_cases same : source = key
  · subst same
    simp only [if_true, DependencyNode.addDependency, List.mem_append, List.mem_singleton,
      and_or_left, exists_or, exists_and_right, true_and]
    exact or_congr_right and_comm
  · simp only [same, if_false, false_and, or_false]

theorem listed_addDependency :
    Listed (Dict.update key (DependencyNode.addDependency dependsOn) graph) target source <->
      graph.Listed target source := by
  unfold Listed
  rw [exists_lookup_update]
  refine exists_congr fun node => and_congr_right fun _ => ?_
  split <;> rfl

theorem addDependency_ok (done : graph.addDependency name dependsOn = .ok next) :
    (next = graph ∧ graph.Depends name dependsOn) ∨
    (graph.Present name ∧ graph.Present dependsOn ∧ Not (TransGen graph.Depends dependsOn name) ∧
      (∀ other, next.Present other <-> graph.Present other) ∧
      (∀ source target, next.Depends source target <->
        graph.Depends source target ∨ (source = name ∧ target = dependsOn)) ∧
      (∀ target source, next.Listed target source <->
        graph.Listed target source ∨ (source = name ∧ target = dependsOn)) ∧
      (graph.Once -> next.Once)) := by
  unfold addDependency at done
  split at done
  case isTrue => exact nomatch done
  case isFalse here =>
  split at done
  case isTrue => exact nomatch done
  case isFalse there =>
  rw [isSome_eq_false_iff, not_not] at here there
  split at done
  case isTrue old => exact .inl ⟨(Except.ok.inj done).symm, mem_getDependencies.mp old⟩
  case isFalse =>
  split at done
  case isTrue => exact nomatch done
  case isFalse open_ =>
  have step := Except.ok.inj done
  subst step
  refine .inr ⟨here, there, ?_, ?_, ?_, ?_, ?_⟩
  · exact fun leads => open_ (mem_getAllDependencies.mpr leads)
  · intro other
    exact present_update.trans present_update
  · intro source target
    rw [depends_addDependent, depends_addDependency]
    simp only [here, and_true]
  · intro target source
    rw [listed_addDependent, listed_addDependency, present_update]
    simp only [there, and_true]
  · intro once
    exact once_update (fun _ => nodup_addDependent) (once_update (fun _ kept => kept) once)

end DependencyGraph
end Tools
end BreadMind
