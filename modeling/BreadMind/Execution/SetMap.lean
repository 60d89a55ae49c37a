import Mathlib.Data.Finset.Basic

namespace BreadMind
namespace Execution

open Function (update update_of_ne update_self)

universe u v

/-!
# Maps into sets

A map from keys to sets whose key disappears with the last element of its
set.  Adding creates the set when it is absent.  What a key maps to is read
through `values`, for which an absent key and an empty set are the same.
-/

abbrev SetMap (Key : Type u) (Value : Type v) := Key -> Option (Finset Value)

namespace SetMap

variable {Key : Type u} {Value : Type v} [DecidableEq Key] [DecidableEq Value]

def values (index : SetMap Key Value) (key : Key) : Finset Value :=
  (index key).getD ∅

def add (index : SetMap Key Value) (key : Key) (value : Value) : SetMap Key Value :=
  update index key (some (insert value ((index key).getD ∅)))

/-- Take a value out of a set, and the set out of the map if it is then empty. -/
def dropValue (value : Value) (held : Option (Finset Value)) : Option (Finset Value) :=
  match held with
  | none => none
  | some values => if values.erase value = ∅ then none else some (values.erase value)

def delete (index : SetMap Key Value) (key : Key) (value : Value) : SetMap Key Value :=
  update index key (dropValue value (index key))

omit [DecidableEq Key] in
theorem getD_dropValue (value : Value) (held : Option (Finset Value)) :
    (dropValue value held).getD ∅ = (held.getD ∅).erase value := by
  cases held with
  | none => rfl
  | some values =>
    unfold dropValue
    dsimp only
    by_cases emptied : values.erase value = ∅
    · rw [if_pos emptied]
      exact emptied.symm
    · rw [if_neg emptied]
      rfl

variable {index : SetMap Key Value} {value : Value}

theorem mem_values_add {key other : Key} {member : Value} :
    member ∈ (index.add key value).values other <->
      member ∈ index.values other ∨ (other = key ∧ member = value) := by
  unfold values add
  by_cases same : other = key
  · subst same
    rw [update_self, Option.getD_some, Finset.mem_insert]
    tauto
  · rw [update_of_ne same]
    tauto

theorem mem_values_delete {key other : Key} {member : Value} :
    member ∈ (index.delete key value).values other <->
      member ∈ index.values other ∧ ¬ (other = key ∧ member = value) := by
  unfold values delete
  by_cases same : other = key
  · subst same
    rw [update_self, getD_dropValue, Finset.mem_erase]
    tauto
  · rw [update_of_ne same]
    tauto

def Trim (index : SetMap Key Value) : Prop :=
  ∀ key, index key ≠ some ∅

omit [DecidableEq Key] in
theorem dropValue_ne {held : Option (Finset Value)} (trim : held ≠ some ∅) :
    dropValue value held ≠ some ∅ := by
  cases held with
  | none => exact trim
  | some values =>
    unfold dropValue
    dsimp only
    split
    · exact nofun
    · rename_i filled
      exact fun same => filled (Option.some.inj same)

theorem Trim.add (trim : Trim index) (key : Key) (value : Value) : Trim (index.add key value) := by
  intro other
  unfold SetMap.add
  by_cases same : other = key
  · subst same
    rw [update_self]
    exact fun empty => Finset.insert_ne_empty _ _ (Option.some.inj empty)
  · rw [update_of_ne same]
    exact trim other

theorem Trim.delete (trim : Trim index) (key : Key) (value : Value) :
    Trim (index.delete key value) := by
  intro other
  unfold SetMap.delete
  by_cases same : other = key
  · subst same
    rw [update_self]
    exact dropValue_ne (trim other)
  · rw [update_of_ne same]
    exact trim other

omit [DecidableEq Value] in
theorem Trim.drop (trim : Trim index) (key : Key) : Trim (update index key none) := by
  intro other
  by_cases same : other = key
  · rw [same, update_self]
    exact nofun
  · rw [update_of_ne same]
    exact trim other

theorem Trim.deleteEach (trim : Trim index) (value : Value)
    (keys : List Key) : Trim (keys.foldl (fun index key => index.delete key value) index) := by
  induction keys generalizing index with
  | nil => exact trim
  | cons key rest ih => exact ih (trim.delete key value)

/-- A value deleted under one key after the other, in any order. -/
theorem foldl_delete (value : Value) {keys : List Key} (distinct : keys.Nodup)
    (index : SetMap Key Value) (other : Key) :
    keys.foldl (fun index key => index.delete key value) index other =
      if other ∈ keys then dropValue value (index other) else index other := by
  induction keys generalizing index with
  | nil => exact (if_neg List.not_mem_nil).symm
  | cons key rest ih =>
    have apart := List.nodup_cons.mp distinct
    rw [List.foldl_cons, ih apart.2]
    unfold delete
    by_cases same : other = key
    · subst same
      rw [if_neg apart.1, update_self, if_pos List.mem_cons_self]
    · rw [update_of_ne same]
      exact if_congr (by rw [List.mem_cons, or_iff_right same]) rfl rfl

end SetMap
end Execution
end BreadMind
