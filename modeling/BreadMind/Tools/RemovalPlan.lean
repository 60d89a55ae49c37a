import Mathlib.Data.Finset.Dedup
import BreadMind.Execution.DepthFirst
import BreadMind.Tools.DependencySoundness

namespace BreadMind
namespace Tools
namespace DependencyGraph

open Execution Relation

/-!
# The order of a removal

A search along the lists of dependents puts each node down behind those that
depend on it.
-/

def dependents (graph : DependencyGraph) (name : String) : Option (List String) :=
  (graph.lookup name).map DependencyNode.dependedBy

/-- The plan, if the frames suffice. -/
def getRemovalPlan (graph : DependencyGraph) (frames : Nat) (name : String) :
    Option (List String) :=
  (collect graph.dependents frames name ([], [])).map Prod.snd

variable {graph : DependencyGraph}

theorem goes_dependents (target source : String) :
    Goes graph.dependents target source <-> graph.Listed target source := by
  unfold Goes dependents Listed
  simp only [Option.map_eq_some_iff]
  constructor
  · rintro ⟨_, ⟨node, found, rfl⟩, member⟩
    exact ⟨node, found, member⟩
  · rintro ⟨node, found, member⟩
    exact ⟨node.dependedBy, ⟨node, found, rfl⟩, member⟩

theorem present_iff_mem {name : String} : graph.Present name <-> name ∈ graph.keys := by
  constructor
  · rintro ⟨node, found⟩
    exact List.mem_map_of_mem (Dict.mem_of_lookup found)
  · intro member
    by_contra absent
    have nothing : graph.lookup name = none :=
      Option.eq_none_iff_forall_not_mem.mpr fun node found => absent ⟨node, found⟩
    rcases List.mem_map.mp member with ⟨entry, inside, rfl⟩
    exact absurd (List.lookup_eq_none_iff.mp nothing entry inside) (by simp)

theorem getRemovalPlan_of_mirrored (wellFormed : graph.WellFormed) (acyclic : Acyclic graph.Edge)
    (mirrored : ∀ name target, graph.Edge name target -> graph.Listed target name)
    {frames : Nat} (enough : graph.length < frames) (name : String) :
    ∃ plan, graph.getRemovalPlan frames name = some plan ∧ plan.Nodup ∧
      (∀ other, other ∈ plan <-> graph.Present other ∧ ReflTransGen graph.Edge other name) ∧
      (∀ before other after, plan = before ++ other :: after ->
        ∀ source, graph.Edge source other -> source ∈ before) := by
  have same : ∀ target source,
      Goes graph.dependents target source <-> Function.swap graph.Edge target source := by
    intro target source
    rw [goes_dependents]
    refine ⟨fun listed => ⟨?_, listed.present⟩, mirrored source target⟩
    exact wellFormed.backed source target listed
  have edges : Goes graph.dependents = Function.swap graph.Edge := by
    funext target source
    exact propext (same target source)
  by_cases present : graph.Present name
  · have apart : Acyclic (Goes graph.dependents) := by
      intro node cycle
      rw [edges] at cycle
      exact acyclic node (transGen_swap.mp cycle)
    have card : graph.keys.toFinset.card < frames := by
      refine Nat.lt_of_le_of_lt (List.toFinset_card_le _) ?_
      unfold Dict.keys
      rw [List.length_map]
      exact enough
    rcases @collect_from _ _ graph.dependents apart graph.keys.toFinset
      (fun node member => by
        rcases present_iff_mem.mpr (List.mem_toFinset.mp member) with ⟨entry, found⟩
        unfold dependents
        rw [found]
        rfl)
      (fun target source goes => by
        rcases (same target source).mp goes with ⟨depends, _⟩
        exact List.mem_toFinset.mpr (present_iff_mem.mp depends.present))
      _ card _ (List.mem_toFinset.mpr (present_iff_mem.mp present)) with
      ⟨later, ran, distinct, members, behind⟩
    refine ⟨later.2, ?_, distinct, fun other => ?_, fun before other after split source edge => ?_⟩
    · unfold getRemovalPlan
      rw [ran]
      rfl
    · rw [members, edges, reflTransGen_swap]
      refine ⟨fun leads => ⟨?_, leads⟩, And.right⟩
      rcases ReflTransGen.cases_head leads with rfl | ⟨_, step, _⟩
      · exact present
      · exact step.1.present
    · exact behind before other after split source ((same other source).mpr edge)
  · have nothing : graph.lookup name = none :=
      Option.eq_none_iff_forall_not_mem.mpr fun node found => present ⟨node, found⟩
    cases frames with
    | zero => exact absurd enough (Nat.not_lt_zero _)
    | succ frames =>
      refine ⟨[], ?_, List.nodup_nil, fun other => ?_, fun before other after split => ?_⟩
      · unfold getRemovalPlan collect dependents
        rw [nothing]
        rfl
      · refine iff_of_false List.not_mem_nil ?_
        rintro ⟨here, leads⟩
        rcases ReflTransGen.cases_tail leads with rfl | ⟨_, _, step⟩
        · exact present here
        · exact present step.2
      · exact absurd split.symm (by simp)

end DependencyGraph
end Tools
end BreadMind
