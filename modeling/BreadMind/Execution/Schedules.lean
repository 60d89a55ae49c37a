import BreadMind.Execution.Machine
import Mathlib.Data.Fintype.Basic
import Mathlib.Data.Finset.Lattice.Fold

namespace BreadMind
namespace Execution

universe u v

/-!
# Infinite runs

A schedule gives the input of every moment.  What happens sooner or later is
stated about schedules, and what holds at every moment follows from single steps
as it does for finite runs.
-/

namespace Machine

variable {State : Type u} {Input : Type v} (machine : Machine State Input) (schedule : Nat -> Input)

def along : Nat -> State
  | 0 => machine.initial
  | time + 1 => machine.step (along time) (schedule time)

/-- The moments of a schedule are the states of its finite beginnings. -/
theorem along_eq_after (time : Nat) :
    machine.along schedule time = machine.after ((List.range time).map schedule) := by
  induction time with
  | zero => rfl
  | succ time ih =>
    rw [List.range_succ, List.map_append, List.map_singleton, after_append_singleton, ← ih]
    rfl

variable {machine schedule}

theorem along_invariant {invariant : State -> Prop} (initially : invariant machine.initial)
    (kept : ∀ state input, invariant state -> invariant (machine.step state input)) (time : Nat) :
    invariant (machine.along schedule time) := by
  rw [along_eq_after]
  exact machine.invariant_after invariant initially kept _

/-- When a step keeps the property exactly if it is guarded, the property holds
at every moment exactly if every step is guarded. -/
theorem along_iff {property : State -> Prop} {guard : State -> Input -> Prop}
    (invariant : State -> Prop) (initially : property machine.initial)
    (invariantInitially : invariant machine.initial)
    (invariantKept : ∀ state input, invariant state -> invariant (machine.step state input))
    (exact : ∀ state input, invariant state -> property state ->
      (property (machine.step state input) <-> guard state input)) :
    (∀ time, property (machine.along schedule time)) <->
      ∀ time, guard (machine.along schedule time) (schedule time) := by
  have reached : ∀ time, invariant (machine.along schedule time) :=
    along_invariant invariantInitially invariantKept
  constructor
  · intro every time
    exact (exact _ _ (reached time) (every time)).mp (every (time + 1))
  · intro guarded time
    induction time with
    | zero => exact initially
    | succ time ih => exact (exact _ _ (reached time) ih).mpr (guarded time)

end Machine

def Recurs (happens : Nat -> Prop) : Prop :=
  ∀ time, ∃ later, time ≤ later ∧ happens later

/-- If it happens to each of finitely many, there is a moment by which it has
happened to all of them. -/
theorem exists_common {count : Nat} {happens : Fin count -> Nat -> Prop} {start : Nat}
    (each : ∀ member, ∃ time, start ≤ time ∧ happens member time) : ∃ last, start ≤ last ∧
      ∀ member, ∃ time, start ≤ time ∧ time ≤ last ∧ happens member time := by
  choose time later happening using each
  refine ⟨start + Finset.univ.sup time, Nat.le_add_right _ _, fun member => ?_⟩
  have bounded : time member ≤ Finset.univ.sup time := Finset.le_sup (Finset.mem_univ member)
  exact ⟨time member, later member, bounded.trans (Nat.le_add_left _ _), happening member⟩

/-- A number which never grows cannot fall again and again. -/
theorem not_recurs_fall {measure : Nat -> Nat} {start : Nat}
    (shrinks : ∀ time, start ≤ time -> measure (time + 1) ≤ measure time) :
    Not (Recurs fun time => start ≤ time ∧ measure (time + 1) < measure time) := by
  intro falls
  have antitone {time later : Nat} (from_ : start ≤ time) (order : time ≤ later) :
      measure later ≤ measure time := by
    induction later, order using Nat.le_induction with
    | base => exact Nat.le_refl _
    | succ later order ih => exact (shrinks later (from_.trans order)).trans ih
  -- The induction is on a bound for the number: each fall makes the bound smaller.
  have never : ∀ bound time, start ≤ time -> measure time ≤ bound -> False := by
    intro bound
    induction bound with
    | zero =>
      intro time from_ small
      rcases falls time with ⟨fall, later, _, less⟩
      exact absurd (less.trans_le ((antitone from_ later).trans small)) (Nat.not_lt_zero _)
    | succ bound ih =>
      intro time from_ small
      rcases falls time with ⟨fall, later, _, less⟩
      have smaller := less.trans_le ((antitone from_ later).trans small)
      exact ih (fall + 1) (from_.trans (later.trans (Nat.le_succ fall)))
        (Nat.lt_succ_iff.mp smaller)
  exact never _ start (Nat.le_refl start) (Nat.le_refl _)

end Execution
end BreadMind
