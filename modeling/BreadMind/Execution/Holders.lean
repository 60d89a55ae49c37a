import Mathlib.Data.List.Basic

namespace BreadMind
namespace Execution

universe u v

/-!
# Keys with a sole holder

Secrets, tickets and other keys are kept at places.  A key has a sole holder
when it is kept at one place only.  This survives when keys move between the
places and when a key that was never kept anywhere comes in; `issued` is a
list of the keys there have been so far.
-/

variable {Place : Type u} {Key : Type v} {holds after : Place -> Option Key} {issued : List Key}

structure SoleHolders (holds : Place -> Option Key) (issued : List Key) : Prop where
  sole : ∀ first second key, holds first = some key -> holds second = some key -> first = second
  known : ∀ place key, holds place = some key -> key ∈ issued

/-- Every key came from some place, and no two from the same one. -/
theorem SoleHolders.move (unique : SoleHolders holds issued) (origin : Place -> Place)
    (from_ : ∀ place key, after place = some key -> holds (origin place) = some key)
    (apart : ∀ first second, after first ≠ none -> after second ≠ none ->
      origin first = origin second -> first = second) : SoleHolders after issued where
  sole := by
    intro first second key firstHolds secondHolds
    refine apart first second ?_ ?_ (unique.sole _ _ key (from_ first key firstHolds)
      (from_ second key secondHolds))
    · rw [firstHolds]
      exact Option.some_ne_none key
    · rw [secondHolds]
      exact Option.some_ne_none key
  known := fun place key here => unique.known _ key (from_ place key here)

theorem SoleHolders.drop (unique : SoleHolders holds issued)
    (from_ : ∀ place key, after place = some key -> holds place = some key) :
    SoleHolders after issued :=
  unique.move id from_ fun _ _ _ _ same => same

/-- A new key comes to a place and the other places keep at most what they had. -/
theorem SoleHolders.insert (unique : SoleHolders holds issued) (place : Place) {key : Key}
    (fresh : key ∉ issued) (here : ∀ held, after place = some held -> held = key)
    (elsewhere : ∀ other held, other ≠ place -> after other = some held ->
      holds other = some held) : SoleHolders after (key :: issued) := by
  have old : ∀ other held, other ≠ place -> after other = some held -> held ≠ key := by
    intro other held apart holding same
    exact fresh (same ▸ unique.known other held (elsewhere other held apart holding))
  constructor
  · intro first second held firstHolds secondHolds
    by_cases firstHere : first = place
    · by_cases secondHere : second = place
      · exact firstHere.trans secondHere.symm
      · exact absurd (here held (firstHere ▸ firstHolds)) (old second held secondHere secondHolds)
    · by_cases secondHere : second = place
      · exact absurd (here held (secondHere ▸ secondHolds)) (old first held firstHere firstHolds)
      · exact unique.sole first second held (elsewhere first held firstHere firstHolds)
          (elsewhere second held secondHere secondHolds)
  · intro other held holding
    by_cases same : other = place
    · rw [here held (same ▸ holding)]
      exact List.mem_cons_self
    · exact List.mem_cons_of_mem _ (unique.known other held (elsewhere other held same holding))

theorem SoleHolders.issue (unique : SoleHolders holds issued) (key : Key) :
    SoleHolders holds (key :: issued) where
  sole := unique.sole
  known := fun place held holding => List.mem_cons_of_mem _ (unique.known place held holding)

/-- The holder of a key gives it up, and with it the key is as good as new. -/
theorem SoleHolders.release [DecidableEq Key] (unique : SoleHolders holds issued) {place : Place}
    {key : Key} (held : holds place = some key) (gone : after place = none)
    (elsewhere : ∀ other ≠ place, after other = holds other) :
    SoleHolders after (issued.filter fun other => !decide (other = key)) where
  sole := by
    refine (unique.drop fun other kept holding => ?_).sole
    have apart : other ≠ place := by
      rintro rfl
      rw [gone] at holding
      cases holding
    exact (elsewhere other apart).symm.trans holding
  known := by
    intro other kept holding
    have apart : other ≠ place := by
      rintro rfl
      rw [gone] at holding
      cases holding
    have before := (elsewhere other apart).symm.trans holding
    refine List.mem_filter.mpr ⟨unique.known other kept before, ?_⟩
    rw [Bool.not_eq_true', decide_eq_false_iff_not]
    rintro rfl
    exact apart (unique.sole other place kept before held)

end Execution
end BreadMind
