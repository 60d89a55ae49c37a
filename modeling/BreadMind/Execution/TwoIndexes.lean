import BreadMind.Execution.Dict

namespace BreadMind
namespace Execution

/-!
# Objects under two keys

Mutable objects which are reached through two dictionaries.  Both hold
references, so a change made to an object found in the one is seen by who finds
it in the other.  An object keeps its two keys; entering one under keys that are
in use replaces the reference and leaves the old object alone.
-/

universe u v w

structure TwoIndexes (Object : Type u) (First : Type v) (Second : Type w) where
  objects : List Object := []
  first : Dict First Nat := []
  second : Dict Second Nat := []

namespace TwoIndexes

variable {Object : Type u} {First : Type v} {Second : Type w}
variable [DecidableEq First] [DecidableEq Second]
variable (firstKey : Object -> First) (secondKey : Object -> Second)

def findFirst (table : TwoIndexes Object First Second) (key : First) : Option (Nat × Object) :=
  (table.first.lookup key).bind fun place => table.objects[place]?.map fun object => (place, object)

def findSecond (table : TwoIndexes Object First Second) (key : Second) : Option (Nat × Object) :=
  (table.second.lookup key).bind fun place => table.objects[place]?.map fun object => (place, object)

def insert (table : TwoIndexes Object First Second) (object : Object) :
    TwoIndexes Object First Second where
  objects := table.objects ++ [object]
  first := Dict.set (firstKey object) table.objects.length table.first
  second := Dict.set (secondKey object) table.objects.length table.second

def modify (table : TwoIndexes Object First Second) (place : Nat) (change : Object -> Object) :
    TwoIndexes Object First Second :=
  { table with objects := table.objects.modify place change }

/-- Take the object under the first key out of both indexes. -/
def remove (table : TwoIndexes Object First Second) (key : First) :
    TwoIndexes Object First Second :=
  match table.findFirst key with
  | none => table
  | some (_, object) =>
    { table with
      first := Dict.pop key table.first
      second := Dict.pop (secondKey object) table.second }

/-- The object is there, and both indexes lead to it. -/
structure Holds (table : TwoIndexes Object First Second) (place : Nat) (object : Object) : Prop where
  there : table.objects[place]? = some object
  byFirst : table.first.lookup (firstKey object) = some place
  bySecond : table.second.lookup (secondKey object) = some place

structure Agrees (table : TwoIndexes Object First Second) : Prop where
  first : ∀ key place, table.first.lookup key = some place ->
    ∃ object, Holds firstKey secondKey table place object ∧ firstKey object = key
  second : ∀ key place, table.second.lookup key = some place ->
    ∃ object, Holds firstKey secondKey table place object ∧ secondKey object = key

variable {firstKey secondKey} {table : TwoIndexes Object First Second}

theorem agrees_empty : Agrees firstKey secondKey ({} : TwoIndexes Object First Second) := by
  constructor
  · intro key place found
    cases found
  · intro key place found
    cases found

variable {place : Nat} {object : Object}

theorem Agrees.findFirst (agrees : Agrees firstKey secondKey table) {key : First}
    (found : table.findFirst key = some (place, object)) :
    Holds firstKey secondKey table place object ∧ firstKey object = key := by
  rcases Option.bind_eq_some_iff.mp found with ⟨here, entry, pair⟩
  rcases Option.map_eq_some_iff.mp pair with ⟨other, there, same⟩
  cases same
  rcases agrees.first key place entry with ⟨held, holds, keyed⟩
  cases there.symm.trans holds.there
  exact ⟨holds, keyed⟩

theorem Agrees.findSecond (agrees : Agrees firstKey secondKey table) {key : Second}
    (found : table.findSecond key = some (place, object)) :
    Holds firstKey secondKey table place object ∧ secondKey object = key := by
  rcases Option.bind_eq_some_iff.mp found with ⟨here, entry, pair⟩
  rcases Option.map_eq_some_iff.mp pair with ⟨other, there, same⟩
  cases same
  rcases agrees.second key place entry with ⟨held, holds, keyed⟩
  cases there.symm.trans holds.there
  exact ⟨holds, keyed⟩

theorem Holds.of_insert {held : Object}
    (holds : Holds firstKey secondKey (table.insert firstKey secondKey object) place held) :
    held = object ∨ Holds firstKey secondKey table place held := by
  by_cases last : place = table.objects.length
  · have there := holds.there
    rw [last] at there
    change (table.objects ++ [object])[table.objects.length]? = some held at there
    rw [List.getElem?_concat_length] at there
    exact .inl (Option.some.inj there).symm
  · refine .inr ⟨?_, ?_, ?_⟩
    · have there := holds.there
      change (table.objects ++ [object])[place]? = some held at there
      rw [List.getElem?_append] at there
      split at there
      · exact there
      case isFalse beyond =>
        have outside : [object].length ≤ place - table.objects.length := by
          rw [List.length_singleton]
          omega
        rw [List.getElem?_eq_none outside] at there
        cases there
    · have found := holds.byFirst
      change (Dict.set _ _ table.first).lookup _ = _ at found
      rw [Dict.lookup_set] at found
      split at found
      · exact absurd (Option.some.inj found).symm last
      · exact found
    · have found := holds.bySecond
      change (Dict.set _ _ table.second).lookup _ = _ at found
      rw [Dict.lookup_set] at found
      split at found
      · exact absurd (Option.some.inj found).symm last
      · exact found

theorem holds_insert_self (object : Object) :
    Holds firstKey secondKey (table.insert firstKey secondKey object) table.objects.length object :=
  ⟨List.getElem?_concat_length, Dict.lookup_set_self _ _ _, Dict.lookup_set_self _ _ _⟩

theorem Holds.insert {held : Object} (holds : Holds firstKey secondKey table place held)
    (otherFirst : firstKey held ≠ firstKey object) (otherSecond : secondKey held ≠ secondKey object) :
    Holds firstKey secondKey (table.insert firstKey secondKey object) place held := by
  refine ⟨?_, ?_, ?_⟩
  · have inside := (List.getElem?_eq_some_iff.mp holds.there).1
    exact (List.getElem?_append_left inside).trans holds.there
  · exact (Dict.lookup_set_of_ne _ otherFirst _).trans holds.byFirst
  · exact (Dict.lookup_set_of_ne _ otherSecond _).trans holds.bySecond

/-- The keys of the new object belong together in what is there already. -/
theorem Agrees.insert (agrees : Agrees firstKey secondKey table)
    (paired : ∀ place held, Holds firstKey secondKey table place held ->
      (firstKey held = firstKey object <-> secondKey held = secondKey object)) :
    Agrees firstKey secondKey (table.insert firstKey secondKey object) := by
  constructor
  · intro key place found
    change (Dict.set _ _ table.first).lookup key = _ at found
    rw [Dict.lookup_set] at found
    split at found
    case isTrue same =>
      cases found
      exact ⟨object, holds_insert_self object, same.symm⟩
    case isFalse other =>
      rcases agrees.first key place found with ⟨held, holds, keyed⟩
      have otherFirst : firstKey held ≠ firstKey object := fun same => other (keyed ▸ same)
      have otherSecond := fun same => otherFirst ((paired place held holds).mpr same)
      exact ⟨held, holds.insert otherFirst otherSecond, keyed⟩
  · intro key place found
    change (Dict.set _ _ table.second).lookup key = _ at found
    rw [Dict.lookup_set] at found
    split at found
    case isTrue same =>
      cases found
      exact ⟨object, holds_insert_self object, same.symm⟩
    case isFalse other =>
      rcases agrees.second key place found with ⟨held, holds, keyed⟩
      have otherSecond : secondKey held ≠ secondKey object := fun same => other (keyed ▸ same)
      have otherFirst := fun same => otherSecond ((paired place held holds).mp same)
      exact ⟨held, holds.insert otherFirst otherSecond, keyed⟩

section Modify

variable {change : Object -> Object}
variable (keepsFirst : ∀ object, firstKey (change object) = firstKey object)
variable (keepsSecond : ∀ object, secondKey (change object) = secondKey object)

include keepsFirst keepsSecond

theorem Holds.modify {spot place : Nat} {object : Object}
    (holds : Holds firstKey secondKey table place object) :
    Holds firstKey secondKey (table.modify spot change) place
      (if spot = place then change object else object) := by
  have there : (table.modify spot change).objects[place]? =
      some (if spot = place then change object else object) := by
    change (table.objects.modify spot change)[place]? = _
    rw [List.getElem?_modify, holds.there]
    rfl
  by_cases same : spot = place
  · rw [if_pos same] at there ⊢
    exact ⟨there, (keepsFirst object).symm ▸ holds.byFirst, (keepsSecond object).symm ▸ holds.bySecond⟩
  · rw [if_neg same] at there ⊢
    exact ⟨there, holds.byFirst, holds.bySecond⟩

theorem Agrees.modify (agrees : Agrees firstKey secondKey table) (spot : Nat) :
    Agrees firstKey secondKey (table.modify spot change) := by
  constructor
  · intro key place found
    rcases agrees.first key place found with ⟨object, holds, keyed⟩
    refine ⟨_, holds.modify keepsFirst keepsSecond, ?_⟩
    split
    · exact (keepsFirst object).trans keyed
    · exact keyed
  · intro key place found
    rcases agrees.second key place found with ⟨object, holds, keyed⟩
    refine ⟨_, holds.modify keepsFirst keepsSecond, ?_⟩
    split
    · exact (keepsSecond object).trans keyed
    · exact keyed

theorem Holds.of_modify {spot place : Nat} {held : Object}
    (agrees : Agrees firstKey secondKey table)
    (holds : Holds firstKey secondKey (table.modify spot change) place held) :
    ∃ object, Holds firstKey secondKey table place object ∧
      held = if spot = place then change object else object := by
  rcases agrees.first (firstKey held) place holds.byFirst with ⟨object, old, _⟩
  have new : Holds firstKey secondKey (table.modify spot change) place _ :=
    old.modify keepsFirst keepsSecond
  exact ⟨object, old, Option.some.inj (holds.there.symm.trans new.there)⟩

end Modify

theorem objects_remove (table : TwoIndexes Object First Second) (key : First) :
    (table.remove secondKey key).objects = table.objects := by
  unfold TwoIndexes.remove
  split <;> rfl

theorem Holds.of_remove {key : First}
    (holds : Holds firstKey secondKey (table.remove secondKey key) place object) :
    Holds firstKey secondKey table place object := by
  unfold TwoIndexes.remove at holds
  cases found : table.findFirst key with
  | none =>
    rw [found] at holds
    exact holds
  | some pair =>
    rw [found] at holds
    exact ⟨holds.there, (Dict.lookup_of_pop holds.byFirst).2, (Dict.lookup_of_pop holds.bySecond).2⟩

theorem Agrees.remove (agrees : Agrees firstKey secondKey table) (key : First) :
    Agrees firstKey secondKey (table.remove secondKey key) := by
  unfold TwoIndexes.remove
  cases found : table.findFirst key with
  | none => exact agrees
  | some pair =>
    rcases pair with ⟨gone, object⟩
    rcases agrees.findFirst found with ⟨held, keyed⟩
    -- Another object with one of the two keys would be found at the same place.
    have kept : ∀ place other, Holds firstKey secondKey table place other ->
        firstKey other ≠ key ∨ secondKey other ≠ secondKey object ->
        Holds firstKey secondKey
          { table with
            first := Dict.pop key table.first
            second := Dict.pop (secondKey object) table.second } place other := by
      intro place other holds apart
      have different : place ≠ gone := by
        intro same
        rw [same] at holds
        cases held.there.symm.trans holds.there
        exact apart.elim (fun not => not keyed) (fun not => not rfl)
      have otherFirst : firstKey other ≠ key := by
        intro same
        have again := holds.byFirst
        rw [same, ← keyed, held.byFirst] at again
        exact different (Option.some.inj again).symm
      have otherSecond : secondKey other ≠ secondKey object := by
        intro same
        have again := holds.bySecond
        rw [same, held.bySecond] at again
        exact different (Option.some.inj again).symm
      exact ⟨holds.there, (Dict.lookup_pop_of_ne _ otherFirst).trans holds.byFirst,
        (Dict.lookup_pop_of_ne _ otherSecond).trans holds.bySecond⟩
    constructor
    · intro other place entry
      rcases Dict.lookup_of_pop entry with ⟨different, old⟩
      rcases agrees.first other place old with ⟨here, holds, keyedOther⟩
      exact ⟨here, kept place here holds (.inl (keyedOther ▸ different)), keyedOther⟩
    · intro other place entry
      rcases Dict.lookup_of_pop entry with ⟨different, old⟩
      rcases agrees.second other place old with ⟨here, holds, keyedOther⟩
      exact ⟨here, kept place here holds (.inr (keyedOther ▸ different)), keyedOther⟩

end TwoIndexes

end Execution
end BreadMind
