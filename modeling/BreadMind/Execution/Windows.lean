import Mathlib.Algebra.Order.Monoid.Defs
import Mathlib.Data.List.Basic
import Mathlib.Data.List.Induction

namespace BreadMind
namespace Execution

universe u v w

/-!
# Windows that slide

Events happen one after the other, and some of them count.  What counts is
bounded in every window of a given length as soon as it is bounded, whenever an
event that counts happens, over the events that are then less than a window old.
-/

variable {Event : Type u} {Time : Type v} [AddCommMonoid Time] [LinearOrder Time]

def within (counts : Event -> Bool) (time : Event -> Time) (length start : Time)
    (history : List Event) : List Event :=
  history.filter fun event =>
    counts event && (decide (start ≤ time event) && decide (time event < start + length))

/-- The events that count and are less than a window old. -/
def recent (counts : Event -> Bool) (time : Event -> Time) (length now : Time)
    (history : List Event) : List Event :=
  history.filter fun event => counts event && decide (now < time event + length)

variable {counts : Event -> Bool} {time : Event -> Time} {length start now : Time}
variable {history : List Event}

theorem within_sublist_recent [IsOrderedAddMonoid Time] (inside : now < start + length) :
    (within counts time length start history).Sublist (recent counts time length now history) := by
  apply List.monotone_filter_right
  intro event here
  simp only [Bool.and_eq_true, decide_eq_true_eq] at here
  have later : start + length ≤ time event + length := add_le_add_left here.2.1 length
  simp only [Bool.and_eq_true, decide_eq_true_eq]
  exact ⟨here.1, lt_of_lt_of_le inside later⟩

theorem within_append_singleton (event : Event) :
    within counts time length start (history ++ [event]) =
      within counts time length start history ++
        bif counts event && (decide (start ≤ time event) && decide (time event < start + length)) then
          [event]
        else [] := by
  unfold within
  rw [List.filter_append, List.filter_singleton]

variable {Amount : Type w} [Preorder Amount] {measure : List Event -> Amount} {bound : Amount}

/-- Induction on the history: a window which does not have the last event is a
window of what came before, and one which has it holds recent events alone. -/
theorem measure_within_le [IsOrderedAddMonoid Time]
    (monotone : ∀ fewer more, fewer.Sublist more -> more.Sublist history ->
      measure fewer ≤ measure more) (nothing : measure [] ≤ bound)
    (recently : ∀ before event after, history = before ++ event :: after -> counts event = true ->
      measure (recent counts time length (time event) (before ++ [event])) ≤ bound)
    (start : Time) : measure (within counts time length start history) ≤ bound := by
  suffices every : ∀ past rest, history = past ++ rest ->
      measure (within counts time length start past) ≤ bound from
    every history [] (List.append_nil _).symm
  intro past
  induction past using List.reverseRecOn with
  | nil =>
    intro rest split
    exact nothing
  | append_singleton past event ih =>
    intro rest split
    rw [List.append_assoc, List.singleton_append] at split
    by_cases here : counts event = true ∧ start ≤ time event ∧ time event < start + length
    · have bounded := recently past event rest split here.1
      refine le_trans (monotone _ _ (within_sublist_recent here.2.2) ?_) bounded
      have whole : (past ++ [event]).Sublist history := by
        rw [split, List.append_cons past event rest]
        exact List.sublist_append_left _ rest
      exact List.filter_sublist.trans whole
    · have outside : (counts event &&
          (decide (start ≤ time event) && decide (time event < start + length))) = false := by
        rw [← Bool.not_eq_true]
        simpa only [Bool.and_eq_true, decide_eq_true_eq] using here
      rw [within_append_singleton, outside, cond_false, List.append_nil]
      exact ih (event :: rest) split

end Execution
end BreadMind
