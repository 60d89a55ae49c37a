import Mathlib.Data.List.Basic
import Mathlib.Logic.Function.Iterate
import Mathlib.Data.List.Nodup

namespace BreadMind
namespace Execution

/-!
# Dictionaries in the order of insertion

A key keeps the place at which it was first put.
-/

universe u v

abbrev Dict (Key : Type u) (Value : Type v) := List (Key × Value)

namespace Dict

variable {Key : Type u} [DecidableEq Key] {Value : Type v}

def set (key : Key) (value : Value) : Dict Key Value -> Dict Key Value
  | [] => [(key, value)]
  | entry :: rest => if entry.1 = key then (key, value) :: rest else entry :: set key value rest

theorem lookup_set_self (entries : Dict Key Value) (key : Key) (value : Value) :
    (set key value entries).lookup key = some value := by
  induction entries with
  | nil => exact List.lookup_cons_self
  | cons entry rest ih =>
    unfold set
    split
    · exact List.lookup_cons_self
    case isFalse other =>
      rw [List.lookup_cons, beq_false_of_ne (Ne.symm other)]
      exact ih

variable {key other : Key}

theorem lookup_set_of_ne (entries : Dict Key Value) (different : other ≠ key)
    (value : Value) : (set key value entries).lookup other = entries.lookup other := by
  induction entries with
  | nil =>
    unfold set
    rw [List.lookup_cons, beq_false_of_ne different]
  | cons entry rest ih =>
    unfold set
    split
    case isTrue same =>
      rw [List.lookup_cons, List.lookup_cons, same]
      rw [beq_false_of_ne different]
    case isFalse =>
      rw [List.lookup_cons, List.lookup_cons, ih]

theorem lookup_set (entries : Dict Key Value) (key other : Key) (value : Value) :
    (set key value entries).lookup other =
      if other = key then some value else entries.lookup other := by
  split
  case isTrue same =>
    rw [same]
    exact lookup_set_self entries key value
  case isFalse different => exact lookup_set_of_ne entries different value

variable {entries : Dict Key Value} {value : Value}

theorem lookup_set_some (found : ∃ result, entries.lookup other = some result) :
    ∃ result, (set key value entries).lookup other = some result := by
  rw [lookup_set]
  split
  · exact ⟨value, rfl⟩
  · exact found

theorem mem_set {entry : Key × Value}
    (member : entry ∈ set key value entries) : entry = (key, value) ∨ entry ∈ entries := by
  induction entries with
  | nil => exact .inl (List.mem_singleton.mp member)
  | cons head rest ih =>
    unfold set at member
    split at member
    · rcases List.mem_cons.mp member with new | old
      · exact .inl new
      · exact .inr (List.mem_cons_of_mem head old)
    · rcases List.mem_cons.mp member with first | later
      · exact .inr (first ▸ List.mem_cons_self)
      · exact (ih later).imp_right (List.mem_cons_of_mem head)

def keys (entries : Dict Key Value) : List Key := entries.map Prod.fst

omit [DecidableEq Key] in
theorem keys_cons (entry : Key × Value) (entries : Dict Key Value) :
    keys (entry :: entries) = entry.1 :: keys entries :=
  rfl

theorem keys_set (entries : Dict Key Value) (key : Key) (value : Value) :
    (set key value entries).keys =
      if key ∈ entries.keys then entries.keys else entries.keys ++ [key] := by
  induction entries with
  | nil => rfl
  | cons entry rest ih =>
    unfold set
    by_cases same : entry.1 = key
    · rw [if_pos same, keys_cons, keys_cons, same, if_pos List.mem_cons_self]
    · rw [if_neg same, keys_cons, keys_cons, ih]
      by_cases member : key ∈ keys rest
      · rw [if_pos member, if_pos (List.mem_cons_of_mem _ member)]
      · rw [if_neg member, if_neg]
        · rfl
        · exact fun either => (List.mem_cons.mp either).elim (fun here => same here.symm) member

theorem nodup_set (distinct : entries.keys.Nodup) (key : Key)
    (value : Value) : (set key value entries).keys.Nodup := by
  rw [keys_set]
  split
  · exact distinct
  case isFalse absent =>
    exact List.Nodup.append distinct (List.nodup_singleton _) (List.disjoint_singleton.mpr absent)

theorem set_of_not_mem (absent : key ∉ entries.keys)
    (value : Value) : set key value entries = entries ++ [(key, value)] := by
  induction entries with
  | nil => rfl
  | cons entry rest ih =>
    have different : entry.1 ≠ key := fun same => absent (same ▸ List.mem_cons_self)
    have later := ih (fun member => absent (List.mem_cons_of_mem _ member))
    unfold set
    rw [if_neg different, later]
    rfl

/-- Put one after the other, the entries of a dictionary make it up. -/
theorem foldl_set (entries before : Dict Key Value) (distinct : (before ++ entries).keys.Nodup) :
    entries.foldl (fun table entry => set entry.1 entry.2 table) before = before ++ entries := by
  induction entries generalizing before with
  | nil => exact (List.append_nil before).symm
  | cons entry rest ih =>
    have absent : entry.1 ∉ before.keys := by
      intro member
      unfold keys at distinct
      rw [List.map_append, List.map_cons] at distinct
      exact List.disjoint_of_nodup_append distinct member List.mem_cons_self
    rw [List.foldl_cons, set_of_not_mem absent]
    rw [List.append_cons] at distinct
    rw [ih _ distinct, List.append_assoc, List.singleton_append]

theorem mem_of_lookup (found : entries.lookup key = some value) : (key, value) ∈ entries := by
  rcases List.lookup_eq_some_iff.mp found with ⟨before, after, rfl, _⟩
  exact List.mem_append_right before List.mem_cons_self

theorem lookup_of_mem (distinct : entries.keys.Nodup)
    (member : (key, value) ∈ entries) : entries.lookup key = some value := by
  induction entries with
  | nil => cases member
  | cons entry rest ih =>
    rw [keys_cons, List.nodup_cons] at distinct
    rcases List.mem_cons.mp member with rfl | later
    · exact List.lookup_cons_self
    · have different : key ≠ entry.1 := by
        intro same
        exact distinct.1 (same ▸ List.mem_map_of_mem later)
      rw [List.lookup_cons, beq_false_of_ne different]
      exact ih distinct.2 later

theorem mapM_lookup (distinct : entries.keys.Nodup) :
    (entries.map Prod.fst).mapM (fun key => entries.lookup key) = some (entries.map Prod.snd) := by
  have part : ∀ some' : Dict Key Value, some' ⊆ entries ->
      (some'.map Prod.fst).mapM (fun key => entries.lookup key) = some (some'.map Prod.snd) := by
    intro some' inside
    induction some' with
    | nil => rfl
    | cons entry rest ih =>
      rw [List.map_cons, List.mapM_cons, lookup_of_mem distinct (inside List.mem_cons_self),
        ih (List.subset_of_cons_subset inside)]
      rfl
  exact part entries (List.Subset.refl entries)

/-- The value under a key changes where it stands, if there is one. -/
def update (key : Key) (change : Value -> Value) (entries : Dict Key Value) : Dict Key Value :=
  match entries.lookup key with
  | none => entries
  | some value => set key (change value) entries

theorem lookup_update (entries : Dict Key Value) (key other : Key) (change : Value -> Value) :
    (update key change entries).lookup other =
      if other = key then (entries.lookup other).map change else entries.lookup other := by
  unfold update
  cases found : entries.lookup key with
  | none =>
    dsimp only
    split
    case isTrue same =>
      rw [same, found]
      rfl
    case isFalse => rfl
  | some value =>
    dsimp only
    rw [lookup_set]
    split
    case isTrue same =>
      rw [same, found]
      rfl
    case isFalse => rfl

theorem nodup_update (distinct : entries.keys.Nodup) (key : Key)
    (change : Value -> Value) : (update key change entries).keys.Nodup := by
  unfold update
  split
  · exact distinct
  case h_2 value _ => exact nodup_set distinct key (change value)

/-- Changes under one key after the other reach a value as often as its key is listed. -/
theorem lookup_foldl_update (listed : List Key) (change : Value -> Value)
    (entries : Dict Key Value) (key : Key) :
    (listed.foldl (fun entries key => update key change entries) entries).lookup key =
      (entries.lookup key).map (change^[listed.count key]) := by
  induction listed generalizing entries with
  | nil => exact Option.map_id_apply.symm
  | cons first rest ih =>
    rw [List.foldl_cons, ih, lookup_update]
    by_cases same : key = first
    · rw [if_pos same, same, List.count_cons_self, Function.iterate_succ, Option.map_map]
    · rw [if_neg same, List.count_cons_of_ne (Ne.symm same)]

def pop (key : Key) (entries : Dict Key Value) : Dict Key Value :=
  entries.filter fun entry => !decide (entry.1 = key)

theorem lookup_pop_self (entries : Dict Key Value) (key : Key) :
    (pop key entries).lookup key = none := by
  refine List.lookup_eq_none_iff.mpr ?_
  intro entry member
  have kept := (List.mem_filter.mp member).2
  refine bne_iff_ne.mpr ?_
  intro same
  rw [decide_eq_true same.symm] at kept
  cases kept

theorem lookup_pop_of_ne (entries : Dict Key Value) (different : other ≠ key) :
    (pop key entries).lookup other = entries.lookup other := by
  induction entries with
  | nil => rfl
  | cons entry rest ih =>
    unfold pop at ih ⊢
    by_cases same : entry.1 = key
    · rw [List.filter_cons_of_neg, List.lookup_cons, same, beq_false_of_ne different]
      · exact ih
      · rw [decide_eq_true same]
        exact Bool.false_ne_true
    · rw [List.filter_cons_of_pos, List.lookup_cons, List.lookup_cons, ih]
      rw [decide_eq_false same]
      rfl

/-- What is left after a removal was there before, under another key. -/
theorem lookup_of_pop (found : (pop key entries).lookup other = some value) :
    other ≠ key ∧ entries.lookup other = some value := by
  by_cases same : other = key
  · rw [same, lookup_pop_self] at found
    cases found
  · rw [lookup_pop_of_ne entries same] at found
    exact ⟨same, found⟩

theorem lookup_pop (entries : Dict Key Value) (key other : Key) :
    (pop key entries).lookup other = if other = key then none else entries.lookup other := by
  split
  case isTrue same =>
    rw [same]
    exact lookup_pop_self entries key
  case isFalse different => exact lookup_pop_of_ne entries different

theorem lookup_foldl_pop (removed : List Key) (entries : Dict Key Value) (key : Key) :
    (removed.foldl (fun entries key => pop key entries) entries).lookup key =
      if key ∈ removed then none else entries.lookup key := by
  induction removed generalizing entries with
  | nil => exact (if_neg List.not_mem_nil).symm
  | cons first rest ih =>
    rw [List.foldl_cons, ih, lookup_pop]
    by_cases later : key ∈ rest
    · rw [if_pos later, if_pos (List.mem_cons_of_mem _ later)]
    · by_cases same : key = first
      · rw [if_neg later, if_pos same, if_pos (same ▸ List.mem_cons_self)]
      · rw [if_neg later, if_neg same, if_neg fun either =>
          (List.mem_cons.mp either).elim same later]

theorem nodup_pop (distinct : entries.keys.Nodup) (key : Key) : (pop key entries).keys.Nodup :=
  (List.filter_sublist.map Prod.fst).nodup distinct

theorem nodup_foldl_pop (distinct : entries.keys.Nodup) (removed : List Key) :
    (removed.foldl (fun entries key => pop key entries) entries).keys.Nodup := by
  induction removed generalizing entries with
  | nil => exact distinct
  | cons first rest ih => exact ih (nodup_pop distinct first)

end Dict

end Execution
end BreadMind
