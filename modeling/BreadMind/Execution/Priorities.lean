import Mathlib.Data.List.Sort

namespace BreadMind
namespace Execution

universe u

/-!
# Items in the order of their priorities

The highest priority comes first, and items of one priority keep their order.
-/

variable {Item : Type u} {priority : Item -> Int} {items : List Item}

def byPriority (priority : Item -> Int) (items : List Item) : List Item :=
  items.insertionSort fun first second => priority second ≤ priority first

/-- What sorting by priority comes to, whatever the algorithm. -/
structure InPriorityOrder (priority : Item -> Int) (items ordered : List Item) : Prop where
  same : ordered.Perm items
  descending : ordered.Pairwise fun first second => priority second ≤ priority first
  stable : ∀ level, (ordered.filter fun item => decide (priority item = level)) =
    items.filter fun item => decide (priority item = level)

/-- Items that stand in order are left as they are. -/
theorem byPriority_of_descending
    (descending : items.Pairwise fun first second => priority second ≤ priority first) :
    byPriority priority items = items :=
  List.Pairwise.insertionSort_eq descending

theorem byPriority_inOrder : InPriorityOrder priority items (byPriority priority items) := by
  have total : Std.Total fun first second : Item => priority second ≤ priority first :=
    ⟨fun first second => le_total (priority second) (priority first)⟩
  have trans : IsTrans Item fun first second => priority second ≤ priority first :=
    ⟨fun first second third above below => le_trans below above⟩
  refine ⟨List.perm_insertionSort _ _, List.pairwise_insertionSort _ _, fun level => ?_⟩
  -- the items of one level are sorted as they stand, so the sorting keeps them as they stand
  have level_sorted : (items.filter fun item => decide (priority item = level)).Pairwise
      fun first second => priority second ≤ priority first := by
    refine List.pairwise_of_forall_mem_list fun first here second there => ?_
    rw [of_decide_eq_true (List.mem_filter.mp here).2, of_decide_eq_true (List.mem_filter.mp there).2]
  have kept := (List.sublist_insertionSort level_sorted List.filter_sublist).filter
    fun item => decide (priority item = level)
  rw [List.filter_filter, List.filter_congr fun item _ => Bool.and_self _] at kept
  refine (kept.eq_of_length ?_).symm
  exact ((List.perm_insertionSort _ items).filter _).length_eq.symm

end Execution
end BreadMind
