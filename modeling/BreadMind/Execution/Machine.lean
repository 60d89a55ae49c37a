import Mathlib.Data.List.Induction
import Mathlib.Data.List.TakeWhile

namespace BreadMind
namespace Execution

universe u v w

/-!
# Runs of a deterministic machine

A machine has one state and one total step.  Everything that the outside
decides, such as which thread moves next, whether a call fails or what a
peer answers, is part of the input, so a finite list of inputs is one run
and quantifying over lists quantifies over every interleaving.  An input
which is not enabled in a state leaves it unchanged.

Obligations are attached either to the states of a run or to its steps.  A
step obligation sees the state *before* the step together with the input.
The rules below turn one-step facts into facts about whole runs; conditions
on the steps of a run are carried by the same predicate as its conclusions.
-/

structure Machine (State : Type u) (Input : Type v) where
  initial : State
  step : State -> Input -> State

namespace Machine

variable {State : Type u} {Input : Type v} {Record : Type w}
variable (machine : Machine State Input)

def after (inputs : List Input) : State :=
  inputs.foldl machine.step machine.initial

@[simp] theorem after_nil : machine.after [] = machine.initial := rfl

@[simp] theorem after_append_singleton (inputs : List Input) (input : Input) :
    machine.after (inputs ++ [input]) = machine.step (machine.after inputs) input := by
  simp only [after, List.foldl_append, List.foldl_cons, List.foldl_nil]

/-- Every step of the run meets the obligation, read at the state it starts from. -/
def EveryStep (obligation : State -> Input -> Prop) (inputs : List Input) : Prop :=
  ∀ before input rest, inputs = before ++ input :: rest ->
    obligation (machine.after before) input

/-- Every state reached during the run, the first and the last included. -/
def EveryState (property : State -> Prop) (inputs : List Input) : Prop :=
  ∀ before rest, inputs = before ++ rest -> property (machine.after before)

/-! ## Runs grow at their last step -/

theorem everyStep_nil (obligation : State -> Input -> Prop) : machine.EveryStep obligation [] := by
  intro before input rest split
  cases before <;> cases split

theorem everyStep_append_singleton (obligation : State -> Input -> Prop)
    (inputs : List Input) (input : Input) : machine.EveryStep obligation (inputs ++ [input]) <->
      machine.EveryStep obligation inputs ∧ obligation (machine.after inputs) input := by
  constructor
  · intro every
    refine ⟨?_, every inputs input [] rfl⟩
    intro before earlier rest split
    refine every before earlier (rest ++ [input]) ?_
    rw [split, List.append_assoc, List.cons_append]
  · rintro ⟨every, last⟩ before current rest split
    rcases List.eq_nil_or_concat rest with same | ⟨shorter, final, same⟩
    · subst same
      rcases List.append_inj' split rfl with ⟨same, singleton⟩
      cases singleton
      exact same ▸ last
    · subst same
      rw [List.concat_eq_append, ← List.cons_append, ← List.append_assoc] at split
      exact every before current shorter (List.append_inj' split rfl).1

theorem everyState_nil (property : State -> Prop) :
    machine.EveryState property [] <-> property machine.initial := by
  constructor
  · intro every
    exact every [] [] rfl
  · intro initially before rest split
    cases before with
    | nil => exact initially
    | cons head tail => cases split

theorem everyState_append_singleton (property : State -> Prop)
    (inputs : List Input) (input : Input) : machine.EveryState property (inputs ++ [input]) <->
      machine.EveryState property inputs ∧
        property (machine.step (machine.after inputs) input) := by
  constructor
  · intro every
    refine ⟨?_, ?_⟩
    · intro before rest split
      refine every before (rest ++ [input]) ?_
      rw [split, List.append_assoc]
    · rw [← after_append_singleton]
      exact every (inputs ++ [input]) [] (List.append_nil _).symm
  · rintro ⟨every, last⟩ before rest split
    rcases List.eq_nil_or_concat rest with same | ⟨shorter, final, same⟩
    · subst same
      rw [List.append_nil] at split
      rw [← split, after_append_singleton]
      exact last
    · subst same
      rw [List.concat_eq_append, ← List.append_assoc] at split
      exact every before shorter (List.append_inj' split rfl).1

theorem EveryState.last {property : State -> Prop} {inputs : List Input}
    (every : machine.EveryState property inputs) : property (machine.after inputs) :=
  every inputs [] (List.append_nil _).symm

/-- The obligation along a run from a given state, read from its first step. -/
def StepsFrom (obligation : State -> Input -> Prop) : State -> List Input -> Prop
  | _, [] => True
  | state, input :: rest => obligation state input ∧ StepsFrom obligation (machine.step state input) rest

theorem stepsFrom_append (obligation : State -> Input -> Prop) (state : State)
    (first second : List Input) : machine.StepsFrom obligation state (first ++ second) <->
      machine.StepsFrom obligation state first ∧
        machine.StepsFrom obligation (first.foldl machine.step state) second := by
  induction first generalizing state with
  | nil => exact Iff.of_eq (true_and _).symm
  | cons input rest ih =>
    change _ ∧ machine.StepsFrom obligation _ (rest ++ second) <-> _
    rw [ih]
    exact and_assoc.symm

/-- On a given run the obligations can be checked one after the other. -/
theorem everyStep_iff_stepsFrom (obligation : State -> Input -> Prop) (inputs : List Input) :
    machine.EveryStep obligation inputs <-> machine.StepsFrom obligation machine.initial inputs := by
  induction inputs using List.reverseRecOn with
  | nil => exact iff_of_true (machine.everyStep_nil obligation) trivial
  | append_singleton earlier input ih =>
    rw [everyStep_append_singleton, stepsFrom_append, ih]
    exact and_congr_right fun _ => Iff.of_eq (and_true _).symm

/-! ## Invariants, with and without a condition on the steps -/

/-- A property of the first state which every guarded step keeps holds at the
end of every run whose steps are guarded. -/
theorem guarded_invariant (invariant : State -> Prop) (guard : State -> Input -> Prop)
    (initially : invariant machine.initial)
    (kept : ∀ state input, invariant state -> guard state input ->
      invariant (machine.step state input))
    (inputs : List Input) (guarded : machine.EveryStep guard inputs) :
    invariant (machine.after inputs) := by
  induction inputs using List.reverseRecOn with
  | nil => exact initially
  | append_singleton earlier input ih =>
    have parts := (machine.everyStep_append_singleton guard earlier input).mp guarded
    rw [after_append_singleton]
    exact kept _ _ (ih parts.1) parts.2

/-- The unguarded case: an invariant holds after every run. -/
theorem invariant_after (invariant : State -> Prop) (initially : invariant machine.initial)
    (kept : ∀ state input, invariant state -> invariant (machine.step state input))
    (inputs : List Input) : invariant (machine.after inputs) :=
  machine.guarded_invariant invariant (fun _ _ => True) initially
    (fun state input holds _ => kept state input holds) inputs
    (fun _ _ _ _ => trivial)

/-- Every prefix of a guarded run is guarded, so a guarded invariant holds in
every state reached and not only in the last one. -/
theorem guarded_everyState (invariant : State -> Prop) (guard : State -> Input -> Prop)
    (initially : invariant machine.initial)
    (kept : ∀ state input, invariant state -> guard state input ->
      invariant (machine.step state input))
    (inputs : List Input) (guarded : machine.EveryStep guard inputs) :
    machine.EveryState invariant inputs := by
  intro before rest split
  refine machine.guarded_invariant invariant guard initially kept before ?_
  intro earlier input later same
  refine guarded earlier input (later ++ rest) ?_
  rw [split, same, List.append_assoc, List.cons_append]

variable {obligation : State -> Input -> Prop}

/-- Pass from one step obligation to another, using an invariant at the state
each step starts from and the guard of that step. -/
theorem everyStep_of_guarded (invariant : State -> Prop) (guard : State -> Input -> Prop)
    (initially : invariant machine.initial)
    (kept : ∀ state input, invariant state -> guard state input ->
      invariant (machine.step state input))
    (meets : ∀ state input, invariant state -> guard state input -> obligation state input)
    (inputs : List Input) (guarded : machine.EveryStep guard inputs) :
    machine.EveryStep obligation inputs := by
  intro before input rest split
  have reached := machine.guarded_everyState invariant guard initially kept inputs guarded
    before (input :: rest) split
  exact meets _ _ reached (guarded before input rest split)

theorem EveryStep.mono {weaker : State -> Input -> Prop} {inputs : List Input}
    (every : machine.EveryStep obligation inputs)
    (implies : ∀ state input, obligation state input -> weaker state input) :
    machine.EveryStep weaker inputs :=
  fun before input rest split => implies _ _ (every before input rest split)

/-- When, from a state with the property, a step keeps it exactly if the step
is guarded, the property holds throughout a run exactly if every step of the
run is guarded.  The unguarded invariant is available in the comparison. -/
theorem everyState_iff_everyStep {property : State -> Prop} {guard : State -> Input -> Prop}
    (invariant : State -> Prop) (initially : property machine.initial)
    (invariantInitially : invariant machine.initial)
    (invariantKept : ∀ state input, invariant state -> invariant (machine.step state input))
    (exact : ∀ state input, invariant state -> property state ->
      (property (machine.step state input) <-> guard state input)) (inputs : List Input) :
    machine.EveryState property inputs <-> machine.EveryStep guard inputs := by
  induction inputs using List.reverseRecOn with
  | nil =>
    constructor
    · intro _
      exact machine.everyStep_nil guard
    · intro _
      exact (machine.everyState_nil property).mpr initially
  | append_singleton earlier input ih =>
    rw [everyState_append_singleton, everyStep_append_singleton]
    have reached := machine.invariant_after invariant invariantInitially invariantKept earlier
    constructor
    · rintro ⟨every, last⟩
      exact ⟨ih.mp every, (exact _ _ reached (EveryState.last machine every)).mp last⟩
    · rintro ⟨every, last⟩
      have holds := ih.mpr every
      exact ⟨holds, (exact _ _ reached (EveryState.last machine holds)).mpr last⟩

/-- When a guarded invariant makes an obligation and the guard the same for each
step, a run meets the one throughout exactly if it meets the other. -/
theorem everyStep_iff_everyStep {guard : State -> Input -> Prop}
    (invariant : State -> Prop) (initially : invariant machine.initial)
    (kept : ∀ state input, invariant state -> guard state input ->
      invariant (machine.step state input))
    (exact : ∀ state input, invariant state -> (obligation state input <-> guard state input))
    (inputs : List Input) :
    machine.EveryStep obligation inputs <-> machine.EveryStep guard inputs := by
  induction inputs using List.reverseRecOn with
  | nil => exact iff_of_true (machine.everyStep_nil obligation) (machine.everyStep_nil guard)
  | append_singleton earlier input ih =>
    rw [everyStep_append_singleton, everyStep_append_singleton, ih]
    refine and_congr_right fun guarded => ?_
    exact exact _ _ (machine.guarded_invariant invariant guard initially kept earlier guarded)

/-- Run the machine beside a record of its past.  The machine never reads the
record, so the first component is the original run. -/
def recording (start : Record) (note : State -> Input -> Record -> Record) :
    Machine (State × Record) Input where
  initial := (machine.initial, start)
  step := fun current input =>
    (machine.step current.1 input, note current.1 input current.2)

theorem recording_fst (start : Record) (note : State -> Input -> Record -> Record)
    (inputs : List Input) :
    ((machine.recording start note).after inputs).1 = machine.after inputs := by
  induction inputs using List.reverseRecOn with
  | nil => rfl
  | append_singleton earlier input ih =>
    rw [after_append_singleton, after_append_singleton]
    exact congrArg (fun state => machine.step state input) ih

def outputs {Output : Type w} (put : State -> Input -> List Output)
    (inputs : List Input) : List Output :=
  ((machine.recording [] (fun state input past => past ++ put state input)).after inputs).2

@[simp] theorem outputs_nil {Output : Type w} (put : State -> Input -> List Output) :
    machine.outputs put [] = [] := rfl

@[simp] theorem outputs_append_singleton {Output : Type w} (put : State -> Input -> List Output)
    (inputs : List Input) (input : Input) : machine.outputs put (inputs ++ [input]) =
      machine.outputs put inputs ++ put (machine.after inputs) input := by
  unfold outputs
  rw [after_append_singleton]
  change _ ++ put ((machine.recording [] _).after inputs).1 input = _
  rw [recording_fst]

end Machine

/-- The positions of a longer history are the old ones and the new ones. -/
theorem forall_split_append {Entry : Type u} {holds : List Entry -> Entry -> Prop}
    {past more : List Entry}
    (old : ∀ before entry after, past = before ++ entry :: after -> holds before entry)
    (new : ∀ before entry after, more = before ++ entry :: after ->
      holds (past ++ before) entry) (before : List Entry) (entry : Entry) (after : List Entry)
    (split : past ++ more = before ++ entry :: after) : holds before entry := by
  rcases List.append_eq_append_iff.mp split with ⟨middle, same, rest⟩ | ⟨middle, same, rest⟩
  · rw [same]
    exact new middle entry after rest
  · cases middle with
    | nil =>
      rw [List.append_nil] at same
      rw [List.nil_append] at rest
      rw [← same, ← List.append_nil past]
      exact new [] entry after rest.symm
    | cons head tail =>
      cases rest
      exact old before entry tail same

/-- Count in the part of a history before its first mark, as the history grows. -/
theorem countP_takeWhile_append {Entry : Type u} (unmarked counted : Entry -> Bool)
    (history more : List Entry) : ((history ++ more).takeWhile unmarked).countP counted =
      (history.takeWhile unmarked).countP counted +
        if history.all unmarked then (more.takeWhile unmarked).countP counted else 0 := by
  induction history with
  | nil => exact (Nat.zero_add _).symm
  | cons entry rest ih =>
    cases here : unmarked entry with
    | false =>
      simp only [List.cons_append, List.takeWhile_cons, List.all_cons, here, Bool.false_and,
        Bool.false_eq_true, if_false, List.countP_nil, Nat.add_zero]
    | true =>
      simp only [List.cons_append, List.takeWhile_cons, List.all_cons, here, Bool.true_and,
        if_true, List.countP_cons, ih]
      omega

end Execution
end BreadMind
