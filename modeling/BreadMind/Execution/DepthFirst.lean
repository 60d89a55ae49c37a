import Mathlib.Data.List.Nodup
import BreadMind.Execution.Graphs
import BreadMind.Execution.Machine

namespace BreadMind
namespace Execution

universe u

open Relation

/-!
# Depth-first searches in post-order

A node is put down behind all those it leads to.  The recursion is bounded by
the frames it may use; as many frames as there are nodes are enough, since the
nodes being searched are different ones.
-/

section Collecting

variable {Node : Type u} [DecidableEq Node] (next : Node -> Option (List Node))

/-- Search a node unless it has been visited; a node that is not known is
visited and not put down. -/
def collect : Nat -> Node -> List Node × List Node -> Option (List Node × List Node)
  | 0, _, _ => none
  | frames + 1, node, state =>
    if node ∈ state.1 then some state
    else
      match next node with
      | none => some (node :: state.1, state.2)
      | some targets =>
        (targets.foldlM (fun state target => collect frames target state)
          (node :: state.1, state.2)).map fun state => (state.1, state.2 ++ [node])

/-- The edges which the known nodes list. -/
def Goes (source target : Node) : Prop :=
  ∃ targets, next source = some targets ∧ target ∈ targets

structure Collected (path : List Node) (state : List Node × List Node) : Prop where
  visited : ∀ node, node ∈ state.1 <-> node ∈ path ∨ node ∈ state.2
  apart : ∀ node ∈ path, node ∉ state.2
  distinct : state.2.Nodup
  behind : ∀ before node after, state.2 = before ++ node :: after ->
    ∀ target, Goes next node target -> target ∈ before

/-- More has been put down, all of it below one of these nodes. -/
def Extends (nodes : List Node) (state later : List Node × List Node) : Prop :=
  ∃ added, later.2 = state.2 ++ added ∧
    ∀ node ∈ added, Reached (Goes next) nodes node

variable {next} {path : List Node} {state later last : List Node × List Node}

omit [DecidableEq Node] in
theorem Extends.refl (nodes : List Node) : Extends next nodes state state :=
  ⟨[], (List.append_nil _).symm, fun _ impossible => absurd impossible List.not_mem_nil⟩

omit [DecidableEq Node] in
theorem Extends.trans {first second : List Node} (before : Extends next first state later)
    (after : Extends next second later last) : Extends next (first ++ second) state last := by
  rcases before with ⟨added, same, below⟩
  rcases after with ⟨more, same_, below_⟩
  refine ⟨added ++ more, by rw [same_, same, List.append_assoc], fun node member => ?_⟩
  exact reached_append.mpr ((List.mem_append.mp member).imp (below node) (below_ node))

omit [DecidableEq Node] in
/-- One node after the other is searched and put down. -/
theorem collected_foldlM {visit : List Node × List Node -> Node -> Option (List Node × List Node)}
    (targets : List Node) (visits : ∀ target ∈ targets, ∀ state, Collected next path state ->
      ∃ later, visit state target = some later ∧ Collected next path later ∧
        target ∈ later.2 ∧ Extends next [target] state later)
    (collected : Collected next path state) :
    ∃ later, targets.foldlM visit state = some later ∧ Collected next path later ∧
      (∀ target ∈ targets, target ∈ later.2) ∧ Extends next targets state later := by
  induction targets generalizing state with
  | nil =>
    exact ⟨state, rfl, collected, fun _ impossible => absurd impossible List.not_mem_nil,
      Extends.refl []⟩
  | cons target rest ih =>
    rcases visits target List.mem_cons_self state collected with ⟨middle, step, kept, down, more⟩
    rcases ih (fun other member => visits other (List.mem_cons_of_mem _ member))
      kept with ⟨later, steps, kept_, downs, mores⟩
    refine ⟨later, ?_, kept_, fun other member => ?_, more.trans mores⟩
    · rw [List.foldlM_cons, step]
      exact steps
    · rcases List.mem_cons.mp member with rfl | behind
      · rcases mores with ⟨added, same, _⟩
        rw [same]
        exact List.mem_append_left _ down
      · exact downs other behind

theorem collected_collect (acyclic : Acyclic (Goes next)) {nodes : Finset Node}
    (known : ∀ node ∈ nodes, (next node).isSome = true)
    (closed : ∀ source target, Goes next source target -> target ∈ nodes) (frames : Nat)
    {node : Node} (member : node ∈ nodes) (collected : Collected next path state)
    (distinct : path.Nodup) (inside : ∀ other ∈ path, other ∈ nodes)
    (leads : ∀ other ∈ path, TransGen (Goes next) other node)
    (enough : nodes.card < frames + path.length) :
    ∃ later, collect next frames node state = some later ∧ Collected next path later ∧
      node ∈ later.2 ∧ Extends next [node] state later := by
  induction frames generalizing path state node with
  | zero =>
    have short : path.length ≤ nodes.card := by
      rw [← List.toFinset_card_of_nodup distinct]
      exact Finset.card_le_card fun other inPath => inside other (List.mem_toFinset.mp inPath)
    omega
  | succ frames ih =>
    have off : node ∉ path := fun inPath => acyclic node (leads node inPath)
    unfold collect
    by_cases old : node ∈ state.1
    · rw [if_pos old]
      exact ⟨state, rfl, collected, ((collected.visited node).mp old).resolve_left off,
        Extends.refl [node]⟩
    rw [if_neg old]
    rcases Option.isSome_iff_exists.mp (known node member) with ⟨targets, listed⟩
    rw [listed]
    have fresh : node ∉ state.2 := fun down => old ((collected.visited node).mpr (.inr down))
    have entered : Collected next (node :: path) (node :: state.1, state.2) := by
      refine ⟨fun other => ?_, fun other inPath => ?_, collected.distinct, collected.behind⟩
      · rw [List.mem_cons, List.mem_cons, collected.visited, or_assoc]
      · rcases List.mem_cons.mp inPath with rfl | behind
        · exact fresh
        · exact collected.apart other behind
    have below : ∀ target ∈ targets, Goes next node target :=
      fun target inTargets => ⟨targets, listed, inTargets⟩
    rcases collected_foldlM targets (fun target inTargets state collected =>
      ih (closed node target (below target inTargets)) collected
        (List.nodup_cons.mpr ⟨off, distinct⟩)
        (fun other inPath => (List.mem_cons.mp inPath).elim (fun same => same ▸ member) (inside other))
        (fun other inPath => (List.mem_cons.mp inPath).elim
          (fun same => same ▸ TransGen.single (below target inTargets))
          (fun behind => (leads other behind).tail (below target inTargets)))
        (by rw [List.length_cons]; omega)) entered with ⟨later, steps, kept, downs, added, same, under⟩
    have here : node ∉ later.2 := kept.apart node List.mem_cons_self
    dsimp only
    rw [steps]
    refine ⟨_, rfl, ⟨fun other => ?_, fun other inPath => ?_, ?_, ?_⟩, ?_, ?_⟩
    · dsimp only
      rw [kept.visited, List.mem_cons, List.mem_append, List.mem_singleton]
      tauto
    · dsimp only
      rw [List.mem_append, List.mem_singleton]
      rintro (down | rfl)
      · exact kept.apart other (List.mem_cons_of_mem _ inPath) down
      · exact off inPath
    · exact kept.distinct.append (List.nodup_singleton node) (List.disjoint_singleton.mpr here)
    · refine forall_split_append kept.behind fun before other after split target goes => ?_
      rcases List.singleton_eq_append_iff.mp split with ⟨rfl, same⟩ | ⟨rfl, same⟩
      · rcases goes with ⟨list, lists, inList⟩
        rw [(List.cons.inj same).1, listed] at lists
        rw [← Option.some.inj lists] at inList
        exact List.mem_append_left _ (downs target inList)
      · cases same
    · exact List.mem_append_right _ (List.mem_singleton.mpr rfl)
    · refine ⟨added ++ [node], ?_, fun other put => ?_⟩
      · dsimp only at same ⊢
        rw [same, List.append_assoc]
      · rcases List.mem_append.mp put with before | here
        · rcases under other before with ⟨target, inTargets, path⟩
          exact reached_singleton.mpr (ReflTransGen.head (below target inTargets) path)
        · rw [List.mem_singleton.mp here]
          exact reached_singleton.mpr ReflTransGen.refl

/-- From a node, all it leads to is put down once, each behind what it leads to. -/
theorem collect_from (acyclic : Acyclic (Goes next)) {nodes : Finset Node}
    (known : ∀ node ∈ nodes, (next node).isSome = true)
    (closed : ∀ source target, Goes next source target -> target ∈ nodes) {frames : Nat}
    (enough : nodes.card < frames) {node : Node} (member : node ∈ nodes) :
    ∃ later, collect next frames node ([], []) = some later ∧ later.2.Nodup ∧
      (∀ other, other ∈ later.2 <-> ReflTransGen (Goes next) node other) ∧
      (∀ before other after, later.2 = before ++ other :: after ->
        ∀ target, Goes next other target -> target ∈ before) := by
  have start : Collected next [] (([], []) : List Node × List Node) := by
    refine ⟨fun other => by simp, fun other impossible => ?_, List.nodup_nil, ?_⟩
    · exact absurd impossible List.not_mem_nil
    · intro before other after split
      exact absurd split.symm (by simp)
  rcases collected_collect acyclic known closed frames member start List.nodup_nil
    (fun _ impossible => absurd impossible List.not_mem_nil)
    (fun _ impossible => absurd impossible List.not_mem_nil) (by simpa using enough)
    with ⟨later, ran, kept, down, added, same, under⟩
  refine ⟨later, ran, kept.distinct, fun other => ⟨fun put => ?_, fun leads => ?_⟩, kept.behind⟩
  · rw [same, List.nil_append] at put
    exact reached_singleton.mp (under other put)
  · induction leads with
    | refl => exact down
    | tail _ step ih =>
      rcases List.append_of_mem ih with ⟨before, after, split⟩
      rw [split]
      exact List.mem_append_left _ (kept.behind before _ after split _ step)

end Collecting

end Execution
end BreadMind
