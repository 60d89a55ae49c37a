import Mathlib.Data.List.Pairwise

namespace BreadMind
namespace Execution

universe u v

/-!
# Tables with unique indexes

A table is a list of rows, in the order in which a scan of it happens to read
them.  An index computes a key of a row, or nothing for the rows which a
partial index leaves out; it is unique when no two rows have one key.
-/

variable {Row : Type u} {Key : Type v}

def Clashes (index : Row -> Option Key) (row other : Row) : Prop :=
  index row ≠ none ∧ index row = index other

instance [DecidableEq Key] (index : Row -> Option Key) (row other : Row) :
    Decidable (Clashes index row other) :=
  inferInstanceAs (Decidable (_ ∧ _))

def Unique (index : Row -> Option Key) (rows : List Row) : Prop :=
  rows.Pairwise fun row other => ¬ Clashes index row other

instance [DecidableEq Key] (index : Row -> Option Key) (rows : List Row) :
    Decidable (Unique index rows) :=
  inferInstanceAs (Decidable (List.Pairwise _ rows))

variable {index : Row -> Option Key} {rows : List Row}

variable {row : Row}

theorem Clashes.symm {other : Row} (clash : Clashes index row other) : Clashes index other row :=
  ⟨fun none_ => clash.1 (clash.2.trans none_), clash.2.symm⟩

variable {key : Key}

theorem Unique.eq_of_mem (unique : Unique index rows) {first second : Row} (firstIn : first ∈ rows)
    (secondIn : second ∈ rows) (firstKey : index first = some key)
    (secondKey : index second = some key) : first = second := by
  by_contra different
  have symmetric : Std.Symm fun row other => ¬ Clashes index row other :=
    ⟨fun _ _ free clash => free clash.symm⟩
  refine List.Pairwise.forall unique firstIn secondIn different
    ⟨?_, firstKey.trans secondKey.symm⟩
  rw [firstKey]
  exact Option.some_ne_none key

theorem Unique.insert (unique : Unique index rows)
    (free : ∀ other ∈ rows, ¬ Clashes index other row) : Unique index (rows ++ [row]) := by
  refine List.pairwise_append.mpr ⟨unique, List.pairwise_singleton _ _, ?_⟩
  intro other member last here
  rw [List.mem_singleton.mp here]
  exact free other member

variable {change : Row -> Row}

theorem Unique.update (unique : Unique index rows)
    (same : ∀ row, index (change row) = index row) : Unique index (rows.map change) := by
  refine List.pairwise_map.mpr (List.Pairwise.imp ?_ unique)
  intro row other free clash
  refine free ⟨?_, ?_⟩
  · rw [← same row]
    exact clash.1
  · rw [← same row, ← same other]
    exact clash.2

theorem Unique.delete (unique : Unique index rows) (kept : Row -> Bool) :
    Unique index (rows.filter kept) :=
  List.Pairwise.filter kept unique

variable [DecidableEq Key]

def lookup (index : Row -> Option Key) (rows : List Row) (key : Key) : Option Row :=
  rows.find? fun row => index row = some key

theorem lookup_sound (found : lookup index rows key = some row) :
    row ∈ rows ∧ index row = some key := by
  unfold lookup at found
  have met := List.find?_some found
  exact ⟨List.mem_of_find?_eq_some found, of_decide_eq_true met⟩

theorem lookup_eq_none : lookup index rows key = none <-> ∀ row ∈ rows, index row ≠ some key := by
  unfold lookup
  simp only [List.find?_eq_none, decide_eq_true_eq, ne_eq]

theorem lookup_eq_some (unique : Unique index rows) :
    lookup index rows key = some row <-> row ∈ rows ∧ index row = some key := by
  constructor
  · exact lookup_sound
  · rintro ⟨member, keyed⟩
    cases found : lookup index rows key with
    | none => exact False.elim (lookup_eq_none.mp found row member keyed)
    | some other =>
      have other_ := lookup_sound found
      exact congrArg some (unique.eq_of_mem other_.1 member other_.2 keyed)

theorem lookup_congr {others : List Row} (unique : Unique index rows)
    (otherUnique : Unique index others)
    (same : ∀ row, index row = some key -> (row ∈ others <-> row ∈ rows)) :
    lookup index others key = lookup index rows key := by
  refine Option.ext ?_
  intro row
  rw [lookup_eq_some otherUnique, lookup_eq_some unique]
  exact and_congr_left (same row)

theorem lookup_update (unique : Unique index rows) (keys : ∀ row, index (change row) = index row)
    (same : ∀ row, index row = some key -> change row = row) :
    lookup index (rows.map change) key = lookup index rows key := by
  refine lookup_congr unique (unique.update keys) ?_
  intro row keyed
  rw [List.mem_map]
  constructor
  · rintro ⟨old, member, changed⟩
    rw [← changed, keys] at keyed
    rw [same old keyed] at changed
    exact changed ▸ member
  · intro member
    exact ⟨row, member, same row keyed⟩

theorem lookup_map (keys : ∀ row, index (change row) = index row)
    (key : Key) : lookup index (rows.map change) key = (lookup index rows key).map change := by
  unfold lookup
  rw [List.find?_map]
  refine congrArg (fun test => (rows.find? test).map change) ?_
  funext row
  exact congrArg (fun found => decide (found = some key)) (keys row)

end Execution
end BreadMind
