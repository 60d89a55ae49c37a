import Mathlib.Data.List.Perm.Basic

namespace BreadMind
namespace Execution

universe u v

/-!
# Lists from which elements are taken

Messages under way, running tasks and the like are a list, out of which an
element is taken by its position.  The order of the others does not matter.
-/

variable {Item : Type u} {items : List Item} {index : Nat} {item : Item}

theorem taken_perm (here : items[index]? = some item) :
    (item :: items.eraseIdx index).Perm items := by
  rcases List.getElem?_eq_some_iff.mp here with ⟨inside, same⟩
  rw [← same]
  exact List.getElem_cons_eraseIdx_perm inside

theorem mem_taken (here : items[index]? = some item) {other : Item} (member : other ∈ items) :
    other = item ∨ other ∈ items.eraseIdx index :=
  List.mem_cons.mp ((taken_perm here).mem_iff.mpr member)

theorem taken_map_perm {Key : Type v} (key : Item -> Key) (here : items[index]? = some item) :
    (key item :: (items.eraseIdx index).map key).Perm (items.map key) :=
  (taken_perm here).map key

variable {holds other : Item -> Prop}

def AtMostOne (holds : Item -> Prop) (items : List Item) : Prop :=
  items = [] ∨ ∃ item, items = [item] ∧ holds item

theorem atMostOne_nil : AtMostOne holds [] := .inl rfl

theorem atMostOne_one (new : holds item) : AtMostOne holds [item] := .inr ⟨item, rfl, new⟩

namespace AtMostOne

theorem only (one : AtMostOne holds items) (here : items[index]? = some item) :
    items = [item] ∧ index = 0 ∧ holds item := by
  rcases one with none_ | ⟨single, same, has⟩
  · rw [none_] at here
    cases here
  · rw [same] at here
    cases index with
    | zero =>
      cases here
      exact ⟨same, rfl, has⟩
    | succ more => cases here

theorem get (one : AtMostOne holds items) (here : items[index]? = some item) : holds item :=
  (one.only here).2.2

theorem set_eq (one : AtMostOne holds items) (here : items[index]? = some item) (next : Item) :
    items.set index next = [next] := by
  rcases one.only here with ⟨single, first, _⟩
  rw [single, first]
  rfl

theorem set (one : AtMostOne holds items) (here : items[index]? = some item) {next : Item}
    (new : other next) : AtMostOne other (items.set index next) := by
  rw [one.set_eq here]
  exact atMostOne_one new

theorem eraseIdx (one : AtMostOne holds items) (index : Nat) :
    AtMostOne holds (items.eraseIdx index) := by
  rcases one with none_ | ⟨single, same, has⟩
  · rw [none_]
    exact atMostOne_nil
  · rw [same]
    cases index with
    | zero => exact atMostOne_nil
    | succ more => exact atMostOne_one has

theorem eraseIdx_eq_nil (one : AtMostOne holds items) (here : items[index]? = some item) :
    items.eraseIdx index = [] := by
  rcases one.only here with ⟨single, first, _⟩
  rw [single, first]
  rfl

theorem mono (one : AtMostOne holds items) (imp : ∀ item, holds item -> other item) :
    AtMostOne other items := by
  rcases one with none_ | ⟨single, same, has⟩
  · exact .inl none_
  · exact .inr ⟨single, same, imp single has⟩

end AtMostOne

end Execution
end BreadMind
