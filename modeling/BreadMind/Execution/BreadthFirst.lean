import BreadMind.Execution.Graphs

namespace BreadMind
namespace Execution

universe u

open Relation

/-!
# Breadth-first searches

The nodes that wait are entered in their order, each of them once, and the
nodes that an entered one lists wait behind all others.  A search ends because
only finitely many nodes list any.
-/

/-- What each node lists; the nodes that list some are given. -/
structure Network (Node : Type u) where
  next : Node -> List Node
  inner : List Node
  leaf : ∀ node ∉ inner, next node = []

namespace Network

variable {Node : Type u} [DecidableEq Node] (network : Network Node)

/-- The nodes still to be entered that list others. -/
def ahead (visited : List Node) : List Node :=
  network.inner.filter fun node => decide (node ∉ visited)

theorem ahead_append (visited : List Node) (node : Node) :
    (network.ahead (visited ++ [node])).Sublist (network.ahead visited) := by
  refine List.monotone_filter_right network.inner fun other new => ?_
  exact decide_eq_true fun member => of_decide_eq_true new (List.mem_append_left _ member)

variable {node : Node}

theorem ahead_append_lt {visited : List Node} (listed : node ∈ network.inner)
    (new : node ∉ visited) :
    (network.ahead (visited ++ [node])).length < (network.ahead visited).length := by
  have inside := network.ahead_append visited node
  refine Nat.lt_of_le_of_ne inside.length_le fun same => ?_
  have member : node ∈ network.ahead visited := List.mem_filter.mpr ⟨listed, decide_eq_true new⟩
  rw [← inside.eq_of_length same] at member
  refine of_decide_eq_true (List.mem_filter.mp member).2 ?_
  exact List.mem_append_right _ (List.mem_singleton.mpr rfl)

def search (visited : List Node) : List Node -> List Node
  | [] => visited
  | node :: rest =>
    if node ∈ visited then search visited rest
    else search (visited ++ [node]) (rest ++ network.next node)
  termination_by waiting => ((network.ahead visited).length, waiting.length)
  decreasing_by
  · exact Prod.Lex.right _ (Nat.lt_succ_self _)
  case _ new =>
    by_cases listed : node ∈ network.inner
    · exact Prod.Lex.left _ _ (network.ahead_append_lt listed new)
    · rw [network.leaf node listed, List.append_nil]
      rcases Nat.lt_or_eq_of_le (network.ahead_append visited node).length_le with fewer | same
      · exact Prod.Lex.left _ _ fewer
      · rw [same]
        exact Prod.Lex.right _ (Nat.lt_succ_self _)

variable {network} {visited waiting : List Node}

theorem mem_search_of_visited (member : node ∈ visited) :
    node ∈ network.search visited waiting := by
  fun_induction search with
  | case1 => exact member
  | case2 visited first rest old ih => exact ih member
  | case3 visited first rest new ih => exact ih (List.mem_append_left _ member)

theorem mem_search_of_waiting (member : node ∈ waiting) :
    node ∈ network.search visited waiting := by
  fun_induction search with
  | case1 => cases member
  | case2 visited first rest old ih =>
    rcases List.mem_cons.mp member with rfl | later
    · exact mem_search_of_visited old
    · exact ih later
  | case3 visited first rest new ih =>
    rcases List.mem_cons.mp member with rfl | later
    · exact mem_search_of_visited (List.mem_append_right _ (List.mem_singleton.mpr rfl))
    · exact ih (List.mem_append_left _ later)

/-- What a node lists that has been found is found. -/
theorem search_closed (pending : ∀ node ∈ visited, ∀ target ∈ network.next node,
      target ∈ visited ∨ target ∈ waiting) : ∀ node ∈ network.search visited waiting, ∀ target,
      target ∈ network.next node -> target ∈ network.search visited waiting := by
  fun_induction search with
  | case1 visited =>
    intro node member target listed
    exact (pending node member target listed).resolve_right List.not_mem_nil
  | case2 visited first rest old ih =>
    refine ih fun node member target listed => ?_
    rcases pending node member target listed with done | wait
    · exact .inl done
    · rcases List.mem_cons.mp wait with rfl | later
      · exact .inl old
      · exact .inr later
  | case3 visited first rest new ih =>
    refine ih fun node member target listed => ?_
    rcases List.mem_append.mp member with before | here
    · rcases pending node before target listed with done | wait
      · exact .inl (List.mem_append_left _ done)
      · rcases List.mem_cons.mp wait with rfl | later
        · exact .inl (List.mem_append_right _ (List.mem_singleton.mpr rfl))
        · exact .inr (List.mem_append_left _ later)
    · rw [List.mem_singleton.mp here] at listed
      exact .inr (List.mem_append_right _ listed)

theorem search_sound (member : node ∈ network.search visited waiting) :
    node ∈ visited ∨ Reached (Lists network.next) waiting node := by
  fun_induction search with
  | case1 => exact .inl member
  | case2 visited first rest old ih =>
    refine (ih member).imp_right fun reached => ?_
    exact reached_append.mpr (.inr reached : Reached _ [first] node ∨ Reached _ rest node)
  | case3 visited first rest new ih =>
    have here : Reached (Lists network.next) (first :: rest) first :=
      ⟨first, List.mem_cons_self, ReflTransGen.refl⟩
    rcases ih member with done | reached
    · rcases List.mem_append.mp done with before | same
      · exact .inl before
      · rw [List.mem_singleton.mp same]
        exact .inr here
    · refine Or.inr ?_
      rcases reached_append.mp reached with ⟨start, waits, leads⟩ | ⟨start, listed, leads⟩
      · exact ⟨start, List.mem_cons_of_mem _ waits, leads⟩
      · exact here.trans (ReflTransGen.head listed leads)

theorem mem_search :
    node ∈ network.search [] waiting <-> Reached (Lists network.next) waiting node := by
  refine ⟨fun member => (search_sound member).resolve_left List.not_mem_nil, ?_⟩
  rintro ⟨start, waits, leads⟩
  induction leads with
  | refl => exact mem_search_of_waiting waits
  | tail _ step ih =>
    refine search_closed (fun _ impossible => ?_) _ ih _ step
    cases impossible

end Network
end Execution
end BreadMind
