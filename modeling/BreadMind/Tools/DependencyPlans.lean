import BreadMind.Tools.CycleDetection
import BreadMind.Tools.InstallOrder

namespace BreadMind
namespace Tools
namespace DependencyGraph

open Execution Relation

/-!
# What the traversals promise

The search for cycles reads one direction of the edges only and is right on
every graph.  The two plans also read the other direction, and are right just
on the graphs in which every dependency is listed once on both sides.
-/

/-- The installation, the removal and the search for cycles are right. -/
structure Planned (graph : DependencyGraph) : Prop where
  install : Acyclic graph.Edge -> ∀ names : List String, names.Nodup ->
    (graph.installOrder names).Perm names ∧ graph.InOrder names (graph.installOrder names)
  removal : Acyclic graph.Edge -> ∀ frames, graph.length < frames -> ∀ name,
    ∃ plan, graph.getRemovalPlan frames name = some plan ∧ plan.Nodup ∧
      (∀ other, other ∈ plan <-> graph.Present other ∧ ReflTransGen graph.Edge other name) ∧
      (∀ before other after, plan = before ++ other :: after ->
        ∀ source, graph.Edge source other -> source ∈ before)
  cycles : ∀ frames, graph.length < frames -> ∃ cycles,
    graph.detectCycles frames = some cycles ∧ (∀ cycle ∈ cycles, graph.Genuine cycle) ∧
      (cycles = [] <-> Acyclic graph.Edge)

/-- Each dependency is listed once, and has a node that lists the dependent. -/
def Consistent (graph : DependencyGraph) : Prop :=
  ∀ name, (graph.getDependencies name).Nodup ∧
    ∀ dep ∈ graph.getDependencies name, graph.Listed dep name

variable {graph : DependencyGraph}

theorem Consistent.agreeing (consistent : graph.Consistent) (names : List String) :
    graph.Agreeing names :=
  fun name _ => ⟨(consistent name).1.filter _,
    fun dep member => (consistent name).2 dep (List.mem_filter.mp member).1⟩

theorem consistent_of_agreeing (agreeing : ∀ names : List String, names.Nodup ->
    graph.Agreeing names) : graph.Consistent := by
  intro name
  have here := agreeing (name :: graph.getDependencies name).dedup (List.nodup_dedup _) name
    (List.mem_dedup.mpr List.mem_cons_self)
  have whole : graph.within (name :: graph.getDependencies name).dedup name =
      graph.getDependencies name :=
    List.filter_eq_self.mpr fun dep member =>
      decide_eq_true (List.mem_dedup.mpr (List.mem_cons_of_mem name member))
  rwa [whole] at here

/-- On every graph that the operations build, the traversals are right exactly
if it has a cycle or each dependency is listed once on both sides. -/
theorem planned_iff_consistent (operations : List Operation) :
    (machine.after operations).Planned <->
      (Acyclic (machine.after operations).Edge -> (machine.after operations).Consistent) := by
  have wellFormed := wellFormed_after operations
  generalize machine.after operations = graph at wellFormed ⊢
  constructor
  · intro planned acyclic
    refine consistent_of_agreeing fun names distinct => ?_
    exact (installOrder_perm_iff wellFormed acyclic distinct).2.mp
      (planned.install acyclic names distinct).1
  · intro consistent
    refine ⟨fun acyclic names distinct => ?_, fun acyclic frames enough name => ?_,
      fun frames enough => detectCycles_genuine enough⟩
    · rcases installOrder_perm_iff wellFormed acyclic distinct with ⟨inOrder, all⟩
      exact ⟨all.mpr ((consistent acyclic).agreeing names), inOrder⟩
    · exact getRemovalPlan_of_mirrored wellFormed acyclic (fun source target edge =>
        (consistent acyclic source).2 target (mem_getDependencies.mpr edge.1)) enough name

/-- A node added after the one that depends on it does not release it. -/
theorem forward_reference_left_out :
    let graph := machine.after [.addNode "a" .tool (some ["b"]), .addNode "b" .tool none]
    Acyclic graph.Edge ∧ ["a", "b"].Nodup ∧ Not ((graph.installOrder ["a", "b"]).Perm ["a", "b"]) := by
  have built : machine.after [.addNode "a" .tool (some ["b"]), .addNode "b" .tool none] =
      [("a", ⟨"a", .tool, ["b"], []⟩), ("b", ⟨"b", .tool, [], []⟩)] := by decide
  have wellFormed := wellFormed_after [.addNode "a" .tool (some ["b"]), .addNode "b" .tool none]
  rw [built] at wellFormed ⊢
  have acyclic : Acyclic (Edge [("a", ⟨"a", .tool, ["b"], []⟩), ("b", ⟨"b", .tool, [], []⟩)]) := by
    refine acyclic_of_rank (fun name => if name = "a" then 1 else 0) ?_
    rintro source target ⟨⟨node, found, member⟩, _⟩
    have entry := Dict.mem_of_lookup found
    simp only [List.mem_cons, Prod.mk.injEq, List.not_mem_nil, or_false] at entry
    rcases entry with ⟨rfl, rfl⟩ | ⟨rfl, rfl⟩
    · rw [List.mem_singleton.mp member]
      decide
    · cases member
  refine ⟨acyclic, by decide, fun all => ?_⟩
  have agreeing := (installOrder_perm_iff wellFormed acyclic (by decide)).2.mp all
  have listed := (agreeing "a" (by decide)).2 "b" (by decide)
  rcases listed with ⟨node, found, member⟩
  cases found
  cases member

end DependencyGraph
end Tools
end BreadMind
