import Mathlib.Data.Finset.Card
import Mathlib.Logic.Relation

namespace BreadMind
namespace Execution

universe u

open Relation

/-!
# Cycles, ranks and searches in a graph

A graph is a relation between its nodes.  It may have no finite set of nodes,
but what is said about ranks needs the targets of its edges to be finitely many.

A search goes down from node to node.  `Descends` tells of a graph alone how
deep such a search comes which never enters a node twice: no bookkeeping of the
search is needed for it.
-/

variable {Node : Type u} {edge : Node -> Node -> Prop}

/-! ## Cycles and ranks -/

def Acyclic (edge : Node -> Node -> Prop) : Prop :=
  ∀ node, Not (TransGen edge node node)

theorem rank_lt_of_transGen {rank : Node -> Nat}
    (descends : ∀ source target, edge source target -> rank target < rank source)
    {source target : Node} (leads : TransGen edge source target) : rank target < rank source := by
  induction leads with
  | single step => exact descends _ _ step
  | tail _ step ih => exact Nat.lt_trans (descends _ _ step) ih

theorem acyclic_of_rank (rank : Node -> Nat)
    (descends : ∀ source target, edge source target -> rank target < rank source) : Acyclic edge :=
  fun _ cycle => Nat.lt_irrefl _ (rank_lt_of_transGen descends cycle)

theorem Acyclic.mono {larger : Node -> Node -> Prop} (acyclic : Acyclic larger)
    (fewer : ∀ source target, edge source target -> larger source target) : Acyclic edge :=
  fun node cycle => acyclic node (TransGen.mono fewer _ _ cycle)

theorem Acyclic.of_source {larger : Node -> Node -> Prop} (acyclic : Acyclic edge) (new : Node)
    (edges : ∀ source target, larger source target ->
      target ≠ new ∧ (source = new ∨ edge source target)) : Acyclic larger := by
  have leads : ∀ source target, TransGen larger source target ->
      target ≠ new ∧ (source = new ∨ TransGen edge source target) := by
    intro source target leads
    induction leads with
    | single step => exact (edges _ _ step).imp_right (Or.imp_right TransGen.single)
    | tail _ step ih =>
      rcases ih with ⟨off, before⟩
      rcases edges _ _ step with ⟨ends, old⟩
      exact ⟨ends, before.imp_right fun path => path.tail (old.resolve_left off)⟩
  exact fun node cycle =>
    (leads node node cycle).2.elim (leads node node cycle).1 (acyclic node)

/-- An edge may be added if its target does not lead back to its source. -/
theorem Acyclic.insert {first second : Node} (acyclic : Acyclic edge)
    (open_ : Not (ReflTransGen edge second first)) :
    Acyclic fun source target => edge source target ∨ (source = first ∧ target = second) := by
  have leads : ∀ source target,
      TransGen (fun source target => edge source target ∨ (source = first ∧ target = second))
        source target ->
      TransGen edge source target ∨
        (ReflTransGen edge source first ∧ ReflTransGen edge second target) := by
    intro source target leads
    induction leads with
    | single step =>
      refine step.imp TransGen.single ?_
      rintro ⟨rfl, rfl⟩
      exact ⟨ReflTransGen.refl, ReflTransGen.refl⟩
    | tail _ step ih =>
      rcases step with old | ⟨rfl, rfl⟩
      · exact ih.imp (fun path => path.tail old)
          fun both => ⟨both.1, both.2.tail old⟩
      · rcases ih with path | ⟨_, back⟩
        · exact .inr ⟨path.to_reflTransGen, ReflTransGen.refl⟩
        · exact absurd back open_
  intro node cycle
  rcases leads node node cycle with old | ⟨before, after⟩
  · exact acyclic node old
  · exact open_ (after.trans before)

open Classical in
/-- The number of nodes that a node leads to goes down along every edge. -/
theorem exists_rank (acyclic : Acyclic edge) {targets : Finset Node}
    (finite : ∀ source target, edge source target -> target ∈ targets) : ∃ rank : Node -> Nat,
      ∀ source target, edge source target -> rank target < rank source := by
  refine ⟨fun node => (targets.filter (TransGen edge node)).card, ?_⟩
  intro source target step
  refine Finset.card_lt_card (Finset.ssubset_iff_of_subset ?_ |>.mpr ⟨target, ?_, ?_⟩)
  · intro node member
    rcases Finset.mem_filter.mp member with ⟨listed, leads⟩
    exact Finset.mem_filter.mpr ⟨listed, TransGen.head step leads⟩
  · exact Finset.mem_filter.mpr ⟨finite source target step, TransGen.single step⟩
  · exact fun member => acyclic target (Finset.mem_filter.mp member).2

theorem acyclic_iff_rank (targets : Finset Node)
    (finite : ∀ source target, edge source target -> target ∈ targets) :
    Acyclic edge <-> ∃ rank : Node -> Nat,
      ∀ source target, edge source target -> rank target < rank source := by
  constructor
  · exact fun acyclic => exists_rank acyclic finite
  · rintro ⟨rank, descends⟩
    exact acyclic_of_rank rank descends

/-- Where an edge leads on from each of finitely many nodes, a cycle is reached. -/
theorem exists_cycle {nodes : Finset Node} (goesOn : ∀ node ∈ nodes, ∃ next ∈ nodes, edge node next)
    {start : Node} (member : start ∈ nodes) :
    ∃ node, ReflTransGen edge start node ∧ TransGen edge node node := by
  by_contra none_
  -- Below the start, the graph within the nodes has no cycle, so it has ranks.
  let within : Node -> Node -> Prop := fun source target =>
    edge source target ∧ ReflTransGen edge start source ∧ target ∈ nodes
  have reached : ∀ source target, TransGen within source target ->
      ReflTransGen edge start source ∧ TransGen edge source target := by
    intro source target leads
    induction leads with
    | single step => exact ⟨step.2.1, TransGen.single step.1⟩
    | tail _ step ih => exact ⟨ih.1, TransGen.tail ih.2 step.1⟩
  have acyclic : Acyclic within := fun node cycle => none_ ⟨node, reached node node cycle⟩
  rcases exists_rank acyclic (fun _ _ step => step.2.2) with ⟨rank, descends⟩
  have impossible : ∀ bound node, rank node < bound -> node ∈ nodes ->
      Not (ReflTransGen edge start node) := by
    intro bound
    induction bound with
    | zero => exact fun _ low => (Nat.not_lt_zero _ low).elim
    | succ bound ih =>
      intro node low inside leads
      rcases goesOn node inside with ⟨next, nextInside, step⟩
      have lower := descends node next ⟨step, leads, nextInside⟩
      exact ih next (by omega) nextInside (leads.tail step)
  exact impossible _ start (Nat.lt_succ_self _) member ReflTransGen.refl

variable {node : Node}

theorem not_cycle_of_acc (grounded : Acc (fun target source => edge source target) node) :
    Not (TransGen edge node node) := by
  have below := grounded.transGen
  clear grounded
  induction below with
  | intro node _ ih => exact fun cycle => ih node (transGen_swap.mpr cycle) cycle

/-- One of the nodes leads to this one, or is it. -/
def Reached (edge : Node -> Node -> Prop) (explored : List Node) (node : Node) : Prop :=
  ∃ start ∈ explored, ReflTransGen edge start node

variable {explored : List Node}

theorem reached_append {more : List Node} :
    Reached edge (explored ++ more) node <-> Reached edge explored node ∨ Reached edge more node := by
  constructor
  · rintro ⟨start, member, leads⟩
    rcases List.mem_append.mp member with old | new
    · exact .inl ⟨start, old, leads⟩
    · exact .inr ⟨start, new, leads⟩
  · rintro (⟨start, member, leads⟩ | ⟨start, member, leads⟩)
    · exact ⟨start, List.mem_append_left _ member, leads⟩
    · exact ⟨start, List.mem_append_right _ member, leads⟩

theorem reached_singleton {start : Node} :
    Reached edge [start] node <-> ReflTransGen edge start node := by
  constructor
  · rintro ⟨other, member, leads⟩
    exact List.mem_singleton.mp member ▸ leads
  · exact fun leads => ⟨start, List.mem_singleton.mpr rfl, leads⟩

theorem Reached.trans {source target : Node}
    (reached : Reached edge explored source) (leads : ReflTransGen edge source target) :
    Reached edge explored target := by
  rcases reached with ⟨start, member, before⟩
  exact ⟨start, member, before.trans leads⟩

/-- What the nodes lead to meets neither the path nor a cycle. -/
def Clear (edge : Node -> Node -> Prop) (explored path : List Node) : Prop :=
  ∀ node, Reached edge explored node -> node ∉ path ∧ Not (TransGen edge node node)

theorem clear_nil (path : List Node) : Clear edge [] path := by
  rintro node ⟨start, impossible, _⟩
  cases impossible

theorem clear_append {more path : List Node} :
    Clear edge (explored ++ more) path <-> Clear edge explored path ∧ Clear edge more path := by
  constructor
  · intro clear
    exact ⟨fun node reached => clear node (reached_append.mpr (.inl reached)),
      fun node reached => clear node (reached_append.mpr (.inr reached))⟩
  · rintro ⟨old, new⟩ node reached
    exact (reached_append.mp reached).elim (old node) (new node)

section Searches

variable (next : Node -> List Node)

/-- The edges which the nodes list. -/
def Lists (source target : Node) : Prop := target ∈ next source

/-- Among nodes gone through in order, there is one to which the search comes,
as nothing before it leads to it, to the path or to a cycle, and it goes down
too far from there. -/
def Sinks (tooFar : List Node -> Node -> Prop) (explored path nodes : List Node) : Prop :=
  ∃ before node after, nodes = before ++ node :: after ∧
    Clear (Lists next) (explored ++ before) path ∧ node ∉ path ∧
      Not (Reached (Lists next) (explored ++ before) node) ∧ tooFar (explored ++ before) node

/-- From this node, entered along the path, a search goes down through more than
so many nodes. -/
def Descends : Nat -> List Node -> List Node -> Node -> Prop
  | 0, _, _, _ => True
  | depth + 1, path, explored, node =>
    Sinks next (Descends depth (node :: path)) explored (node :: path) (next node)

variable {next} {tooFar : List Node -> Node -> Prop} {explored path rest : List Node} {node : Node}

theorem not_sinks_nil : Not (Sinks next tooFar explored path []) := by
  rintro ⟨before, node, after, split, _⟩
  exact List.append_ne_nil_of_right_ne_nil before (List.cons_ne_nil node after) split.symm

theorem sinks_cons (clear : Clear (Lists next) explored path) :
    Sinks next tooFar explored path (node :: rest) <->
      (node ∉ path ∧ Not (Reached (Lists next) explored node) ∧ tooFar explored node) ∨
        (Clear (Lists next) [node] path ∧ Sinks next tooFar (explored ++ [node]) path rest) := by
  constructor
  · rintro ⟨before, other, after, split, ahead, off, new, deep⟩
    cases before with
    | nil =>
      cases split
      rw [List.append_nil] at new deep
      exact .inl ⟨off, new, deep⟩
    | cons head tail =>
      cases split
      rw [List.append_cons] at ahead new deep
      refine .inr ⟨(clear_append.mp (clear_append.mp ahead).1).2, ?_⟩
      exact ⟨tail, other, after, rfl, ahead, off, new, deep⟩
  · rintro (⟨off, new, deep⟩ | ⟨_, before, other, after, rfl, ahead, off, new, deep⟩)
    · refine ⟨[], node, rest, rfl, ?_⟩
      rw [List.append_nil]
      exact ⟨clear, off, new, deep⟩
    · refine ⟨node :: before, other, after, rfl, ?_⟩
      rw [← List.append_cons] at ahead new deep
      exact ⟨ahead, off, new, deep⟩

end Searches

end Execution
end BreadMind
