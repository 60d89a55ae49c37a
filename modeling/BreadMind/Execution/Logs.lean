import BreadMind.Execution.Machine

namespace BreadMind
namespace Execution

/-!
# Properties of the entries of a log

A log is written at its end.  A property of an entry may depend on what was in
the log when it was written, so it is not lost when the log grows.
-/

universe u

variable {Entry : Type u} {holds : List Entry -> Entry -> Prop} {log more : List Entry}

/-- Every entry has the property, given the entries before it. -/
def Each (holds : List Entry -> Entry -> Prop) (log : List Entry) : Prop :=
  ∀ before entry after, log = before ++ entry :: after -> holds before entry

/-- Every entry which is written behind the log has the property. -/
def EachAfter (holds : List Entry -> Entry -> Prop) (log more : List Entry) : Prop :=
  ∀ before entry after, more = before ++ entry :: after -> holds (log ++ before) entry

theorem eachAfter_nil : EachAfter holds log [] := by
  intro before entry after split
  exact (List.append_ne_nil_of_right_ne_nil before (List.cons_ne_nil entry after) split.symm).elim

variable {entry : Entry}

theorem eachAfter_singleton (new : holds log entry) : EachAfter holds log [entry] := by
  intro before other after split
  cases before with
  | nil =>
    cases split
    rw [List.append_nil]
    exact new
  | cons head tail =>
    have rest := (List.cons.inj split).2
    exact (List.append_ne_nil_of_right_ne_nil tail (List.cons_ne_nil other after) rest.symm).elim

theorem EachAfter.append {later : List Entry} (old : EachAfter holds log more)
    (new : EachAfter holds (log ++ more) later) : EachAfter holds log (more ++ later) := by
  refine @forall_split_append Entry (fun before => holds (log ++ before)) more later old ?_
  intro before entry after split
  rw [← List.append_assoc]
  exact new before entry after split

/-- Entries which all have the property, however the log has grown till then. -/
theorem eachAfter_of_forall (every : ∀ entry ∈ more,
      ∀ later, log <+: later -> holds later entry) : EachAfter holds log more := by
  intro before entry after split
  refine every entry ?_ _ (List.prefix_append log before)
  rw [split]
  exact List.mem_append_right before List.mem_cons_self

theorem EachAfter.imp {other : List Entry -> Entry -> Prop} (each : EachAfter holds log more)
    (imp : ∀ before entry, holds before entry -> other before entry) : EachAfter other log more :=
  fun before entry after split => imp _ entry (each before entry after split)

theorem EachAfter.of_mem (each : EachAfter holds log more) (member : entry ∈ more) :
    ∃ before, holds before entry := by
  rcases List.append_of_mem member with ⟨before, after, split⟩
  exact ⟨_, each before entry after split⟩

theorem each_nil : Each holds [] := by
  intro before entry after split
  exact (List.append_ne_nil_of_right_ne_nil before (List.cons_ne_nil entry after) split.symm).elim

theorem Each.of_append (each : Each holds (log ++ more)) : Each holds log := by
  intro before entry after split
  refine each before entry (after ++ more) ?_
  rw [split, List.append_assoc, List.cons_append]

theorem Each.append (old : Each holds log) (new : EachAfter holds log more) :
    Each holds (log ++ more) :=
  forall_split_append old new

theorem Each.last (each : Each holds (log ++ [entry])) : holds log entry :=
  each log entry [] rfl

theorem Each.of_mem (each : Each holds log) (member : entry ∈ log) :
    ∃ before, before <+: log ∧ holds before entry := by
  rcases List.append_of_mem member with ⟨before, after, split⟩
  exact ⟨before, ⟨entry :: after, split.symm⟩, each before entry after split⟩

/-- The property of each entry, written out for the entries behind a log. -/
def AllHold (holds : List Entry -> Entry -> Prop) : List Entry -> List Entry -> Prop
  | _, [] => True
  | log, entry :: rest => holds log entry ∧ AllHold holds (log ++ [entry]) rest

theorem eachAfter_of_allHold (all : AllHold holds log more) : EachAfter holds log more := by
  induction more generalizing log with
  | nil => exact eachAfter_nil
  | cons entry rest ih => exact (eachAfter_singleton all.1).append (ih all.2)

theorem each_of_allHold (all : AllHold holds [] log) : Each holds log :=
  eachAfter_of_allHold all

end Execution
end BreadMind
