import Mathlib.Init

namespace BreadMind
namespace Execution

/-!
# Stateful computations which may raise

A program changes a state and then returns or raises; what it did to the
state before raising stays done.  `Ensures` is the usual triple with two ways
out: one condition on the state for a returned value and one for an
exception.  There is one rule for each way to build a program.
-/

abbrev Program (State Failure Value : Type) := ExceptT Failure (StateM State) Value

variable {State Failure Value Result : Type}

/-- Started in a state with `before`, the program ends in a state with
`returned` or, having raised, in one with `raised`. -/
def Ensures (before : State -> Prop) (program : Program State Failure Value)
    (returned : Value -> State -> Prop) (raised : Failure -> State -> Prop) : Prop :=
  ∀ state, before state ->
    match program.run.run state with
    | (.ok value, after) => returned value after
    | (.error failure, after) => raised failure after

namespace Program

/-- Raise the failure of a computation that may have failed, or go on with its value. -/
def ofExcept (computed : Except Failure Value) : Program State Failure Value :=
  match computed with
  | .ok value => pure value
  | .error failure => throw failure

def attempt (body : Program State Failure Value) : Program State Failure (Except Failure Value) :=
  tryCatch (body.map Except.ok) (fun failure => pure (Except.error failure))

/-- A program on the first part of a pair; the second is left alone. -/
def onFirst {Other : Type} (body : Program State Failure Value) :
    Program (State × Other) Failure Value :=
  ExceptT.mk fun state =>
    let outcome := body.run.run state.1
    (outcome.1, (outcome.2, state.2))

variable {before : State -> Prop} {returned : Value -> State -> Prop}
variable {raised : Failure -> State -> Prop}

variable {value : Value}

theorem ensures_pure (holds : ∀ state, before state -> returned value state) :
    Ensures before (pure value) returned raised :=
  holds

theorem ensures_throw {failure : Failure} (holds : ∀ state, before state -> raised failure state) :
    Ensures before (throw failure : Program State Failure Value) returned raised :=
  holds

variable {first : Program State Failure Value} {next : Value -> Program State Failure Result}

theorem ensures_bind (middle : Value -> State -> Prop) {final : Result -> State -> Prop}
    (starts : Ensures before first middle raised)
    (goesOn : ∀ value, Ensures (middle value) (next value) final raised) :
    Ensures before (first >>= next) final raised := by
  intro state holds
  have reached := starts state holds
  simp only [ExceptT.run_bind, StateT.run_bind]
  generalize first.run.run state = outcome at reached
  rcases outcome with ⟨result, after⟩
  cases result with
  | ok value => exact goesOn value after reached
  | error failure => exact reached

theorem ensures_tryCatch {body : Program State Failure Value}
    {handler : Failure -> Program State Failure Value} {caught : Failure -> State -> Prop}
    (runs : Ensures before body returned caught)
    (handles : ∀ failure, Ensures (caught failure) (handler failure) returned raised) :
    Ensures before (tryCatch body handler) returned raised := by
  intro state holds
  have reached : match @StateT.run State Id _ body state with
    | (.ok value, after) => returned value after
    | (.error failure, after) => caught failure after := runs state holds
  change match (ExceptT.tryCatch body handler).run.run state with
    | (.ok value, after) => returned value after
    | (.error failure, after) => raised failure after
  simp only [ExceptT.tryCatch, ExceptT.run_mk, StateT.run_bind]
  generalize StateT.run body state = outcome at reached
  rcases outcome with ⟨result, after⟩
  cases result with
  | ok value => exact reached
  | error failure => exact handles failure after reached

theorem ensures_get : Ensures before (get : Program State Failure State)
      (fun value state => before state ∧ value = state) raised :=
  fun _ holds => ⟨holds, rfl⟩

theorem ensures_modify {change : State -> State} {after : State -> Prop}
    (holds : ∀ state, before state -> after (change state)) :
    Ensures before (modify change : Program State Failure PUnit) (fun _ => after) raised :=
  holds

theorem ensures_ofExcept {computed : Except Failure Value}
    (value : ∀ value, computed = .ok value -> ∀ state, before state -> returned value state)
    (failure : ∀ failure, computed = .error failure ->
      ∀ state, before state -> raised failure state) :
    Ensures before (ofExcept computed) returned raised := by
  cases computed with
  | ok result => exact value result rfl
  | error problem => exact failure problem rfl

variable {program : Program State Failure Value}

theorem Ensures.weaken {stronger : State -> Prop} {weakerReturned : Value -> State -> Prop}
    {weakerRaised : Failure -> State -> Prop} (ensures : Ensures before program returned raised)
    (starts : ∀ state, stronger state -> before state)
    (returns : ∀ value state, returned value state -> weakerReturned value state)
    (raises : ∀ failure state, raised failure state -> weakerRaised failure state) :
    Ensures stronger program weakerReturned weakerRaised := by
  intro state holds
  have reached := ensures state (starts state holds)
  generalize program.run.run state = outcome at reached
  rcases outcome with ⟨result, after⟩
  cases result with
  | ok value => exact returns value after reached
  | error failure => exact raises failure after reached

/-- The rule of consequence for the start alone. -/
theorem Ensures.start {stronger : State -> Prop} (ensures : Ensures before program returned raised)
    (starts : ∀ state, stronger state -> before state) : Ensures stronger program returned raised :=
  Ensures.weaken ensures starts (fun _ _ holds => holds) fun _ _ holds => holds

/-- The rule of consequence for what is raised alone. -/
theorem Ensures.raise {weakerRaised : Failure -> State -> Prop}
    (ensures : Ensures before program returned raised)
    (raises : ∀ failure state, raised failure state -> weakerRaised failure state) :
    Ensures before program returned weakerRaised :=
  Ensures.weaken ensures (fun _ holds => holds) (fun _ _ holds => holds) raises

/-- What is known of a program from two sides. -/
theorem Ensures.and {beforeToo : State -> Prop}
    {returnedToo : Value -> State -> Prop} {raisedToo : Failure -> State -> Prop}
    (ensures : Ensures before program returned raised)
    (likewise : Ensures beforeToo program returnedToo raisedToo) :
    Ensures (fun state => before state ∧ beforeToo state) program
      (fun value state => returned value state ∧ returnedToo value state)
      (fun failure state => raised failure state ∧ raisedToo failure state) := by
  rintro state ⟨holds, holdsToo⟩
  have reached := ensures state holds
  have reachedToo := likewise state holdsToo
  generalize program.run.run state = outcome at reached reachedToo
  rcases outcome with ⟨result, after⟩
  cases result <;> exact ⟨reached, reachedToo⟩

/-- The rule of consequence for the start, where a part of it is a fact about no state. -/
theorem ensures_from {fact : Prop} {weaker : State -> Prop}
    (starts : ∀ state, before state -> weaker state ∧ fact)
    (ensures : fact -> Ensures weaker program returned raised) :
    Ensures before program returned raised :=
  fun state holds => ensures (starts state holds).2 state (starts state holds).1

/-- A program may be followed from each start by itself. -/
theorem ensures_at
    (ensures : ∀ start, before start -> Ensures (fun state => state = start) program returned raised) :
    Ensures before program returned raised :=
  fun state holds => ensures state holds state rfl

/-- A part of the condition on the start which is not about the state is a hypothesis. -/
theorem ensures_of_fact {fact : Prop} (ensures : fact -> Ensures before program returned raised) :
    Ensures (fun state => before state ∧ fact) program returned raised :=
  ensures_from (fun _ holds => holds) ensures

/-- However the program ends, the state is then one with `after`. -/
abbrev Reaches (before after : State -> Prop) (program : Program State Failure Value) : Prop :=
  Ensures before program (fun _ => after) (fun _ => after)

/-- However the program ends, it has kept the condition. -/
def Keeps (invariant : State -> Prop) (program : Program State Failure Value) : Prop :=
  Ensures invariant program (fun _ => invariant) (fun _ => invariant)

variable {invariant : State -> Prop}

theorem keeps_pure (value : Value) : Keeps invariant (pure value : Program State Failure Value) :=
  ensures_pure fun _ holds => holds

theorem keeps_throw (failure : Failure) :
    Keeps invariant (throw failure : Program State Failure Value) :=
  ensures_throw fun _ holds => holds

theorem keeps_ofExcept (computed : Except Failure Value) :
    Keeps invariant (ofExcept computed : Program State Failure Value) :=
  ensures_ofExcept (fun _ _ _ holds => holds) (fun _ _ _ holds => holds)

theorem keeps_modify {change : State -> State}
    (kept : ∀ state, invariant state -> invariant (change state)) :
    Keeps invariant (modify change : Program State Failure PUnit) :=
  ensures_modify kept

theorem keeps_bind (starts : Keeps invariant first)
    (goesOn : ∀ value, Keeps invariant (next value)) : Keeps invariant (first >>= next) :=
  ensures_bind (fun _ => invariant) starts goesOn

theorem keeps_get : Keeps invariant (get : Program State Failure State) :=
  Ensures.weaken ensures_get (fun _ holds => holds) (fun _ _ holds => holds.1)
    (fun _ _ holds => holds)

/-- What follows a look at the state may use what is known of it. -/
theorem keeps_get_bind {next : State -> Program State Failure Result}
    (goesOn : ∀ state, invariant state -> Keeps invariant (next state)) :
    Keeps invariant (get >>= next) :=
  ensures_bind _ ensures_get fun value => ensures_from
    (fun state (holds : invariant state ∧ value = state) => ⟨holds.1, holds.2 ▸ holds.1⟩)
    (goesOn value)

variable {body : Program State Failure Value}

theorem keeps_tryCatch
    {handler : Failure -> Program State Failure Value} (runs : Keeps invariant body)
    (handles : ∀ failure, Keeps invariant (handler failure)) :
    Keeps invariant (tryCatch body handler) :=
  ensures_tryCatch runs handles

theorem keeps_forM {Item : Type} {check : Item -> Program State Failure PUnit}
    (kept : ∀ item, Keeps invariant (check item)) (items : List Item) :
    Keeps invariant (forM items check) := by
  induction items with
  | nil => exact keeps_pure _
  | cons item rest ih => exact keeps_bind (kept item) fun _ => ih

/-! ## Runs which are known -/

variable {start : State}

theorem ensures_ran (ensures : Ensures (fun state => state = start) program returned raised) :
    Ensures (fun state => state = start) program
      (fun value state => program.run.run start = (.ok value, state) ∧ returned value state)
      raised := by
  rintro state rfl
  have reached := ensures state rfl
  generalize program.run.run state = outcome at reached
  rcases outcome with ⟨result, after⟩
  cases result with
  | ok value => exact ⟨rfl, reached⟩
  | error failure => exact reached

variable {middle : State}

theorem run_bind_ok (ran : first.run.run start = (.ok value, middle)) :
    (first >>= next).run.run start = (next value).run.run middle := by
  simp only [ExceptT.run_bind, StateT.run_bind, ran]
  rfl

theorem run_bind_error {failure : Failure} (ran : first.run.run start = (.error failure, middle)) :
    (first >>= next).run.run start = (.error failure, middle) := by
  simp only [ExceptT.run_bind, StateT.run_bind, ran]
  rfl

theorem run_bind_congr {other : Program State Failure Value} {here there : State}
    (alike : first.run.run here = other.run.run there) :
    (first >>= next).run.run here = (other >>= next).run.run there := by
  simp only [ExceptT.run_bind, StateT.run_bind, alike]

theorem run_get (state : State) :
    (get : Program State Failure State).run.run state = (.ok state, state) :=
  rfl

theorem run_onFirst {Other : Type} {after : State}
    {result : Except Failure Value} (ran : body.run.run start = (result, after)) (other : Other) :
    (onFirst body).run.run (start, other) = (result, (after, other)) := by
  change ((body.run.run start).1, ((body.run.run start).2, other)) = _
  rw [ran]

theorem run_tryCatch_ok {handler : Failure -> Program State Failure Value}
    (ran : body.run.run start = (.ok value, middle)) :
    (tryCatch body handler).run.run start = (.ok value, middle) := by
  have here : @StateT.run State Id _ body start = (.ok value, middle) := ran
  change (ExceptT.tryCatch body handler).run.run start = _
  simp only [ExceptT.tryCatch, ExceptT.run_mk, StateT.run_bind, here]
  rfl

/-- A program whose failure is caught as a value has its own outcome as the value. -/
theorem run_attempt (body : Program State Failure Value) (start : State) :
    (tryCatch (body.map Except.ok) (fun failure => pure (Except.error failure)) :
      Program State Failure (Except Failure Value)).run.run start =
        (.ok (body.run.run start).1, (body.run.run start).2) := by
  change (ExceptT.tryCatch (body.map Except.ok) _).run.run start = _
  rcases ran : body.run.run start with ⟨result, after⟩
  have here : @StateT.run State Id _ body start = (result, after) := ran
  simp only [ExceptT.tryCatch, ExceptT.map, ExceptT.mk, ExceptT.run, StateT.run_bind, here]
  cases result <;> rfl

theorem ensures_attempt {caught : Failure -> State -> Prop}
    (runs : Ensures before body returned caught) :
    Ensures before (attempt body) (fun outcome state => match outcome with
      | .ok value => returned value state
      | .error failure => caught failure state) raised := by
  intro state holds
  have reached := runs state holds
  have same : (attempt body).run.run state =
      (.ok (body.run.run state).1, (body.run.run state).2) := run_attempt body state
  rw [same]
  generalize body.run.run state = outcome at reached
  rcases outcome with ⟨result, after⟩
  cases result <;> exact reached

/-- A program on the first part of a pair, beside a condition on the second. -/
theorem ensures_onFirst {Other : Type} {beside : Other -> Prop}
    {body : Program State Failure Value} (runs : Ensures before body returned raised) :
    Ensures (fun state : State × Other => before state.1 ∧ beside state.2) (onFirst body)
      (fun value state => returned value state.1 ∧ beside state.2)
      (fun failure state => raised failure state.1 ∧ beside state.2) := by
  rintro state ⟨holds, other⟩
  have reached := runs state.1 holds
  have same : (@onFirst State Failure Value Other body).run.run state =
      ((body.run.run state.1).1, ((body.run.run state.1).2, state.2)) := rfl
  rw [same]
  generalize body.run.run state.1 = outcome at reached
  rcases outcome with ⟨result, after⟩
  cases result <;> exact ⟨reached, other⟩

/-- Two programs which begin alike, one of them on the first part of a pair. -/
theorem shared_bind {Other Left Right : Type} {left : Value -> Program State Failure Left}
    {right : Value -> Program (State × Other) Failure Right}
    (relation : State -> State × Other -> Prop) {other : Other}
    (starts : Ensures before first returned raised) (goesOn : ∀ value state, returned value state ->
      relation ((left value).run.run state).2 ((right value).run.run (state, other)).2)
    (stops : ∀ failure state, raised failure state -> relation state (state, other))
    {state : State} (holds : before state) : relation ((first >>= left).run.run state).2
      ((onFirst first >>= right).run.run (state, other)).2 := by
  have reached := starts state holds
  have beside : (@onFirst State Failure Value Other first).run.run (state, other) =
      ((first.run.run state).1, ((first.run.run state).2, other)) := rfl
  simp only [ExceptT.run_bind, StateT.run_bind, beside]
  generalize first.run.run state = outcome at reached
  rcases outcome with ⟨result, after⟩
  cases result with
  | ok value => exact goesOn value after reached
  | error failure => exact stops failure after reached

/-- A condition which holds both ways out holds of the state that is left. -/
theorem Ensures.after {final : State -> Prop}
    (ensures : Ensures before program (fun _ => final) (fun _ => final)) {state : State}
    (holds : before state) : final (program.run.run state).2 := by
  have reached := ensures state holds
  generalize program.run.run state = outcome at reached
  rcases outcome with ⟨result, after⟩
  cases result <;> exact reached

end Program
end Execution
end BreadMind
