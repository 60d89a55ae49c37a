import BreadMind.Execution.Machine

namespace BreadMind
namespace Core

open Execution

/-!
# The circuit breaker

A breaker stands before a service.  It lets calls through while it is closed,
refuses them while it is open, and probes the service with a limited number of
calls in between.  Every edit of the breaker is made under its lock and without
a pause, so a call is two steps: the one which admits or refuses it, and the one
in which its coroutine ends.  Between the two any other call may take a step,
and the breaker may have left the state in which it admitted the call.

The breaker keeps no names of calls, only counts of them; what runs behind it
is therefore a number too.  Times are microseconds of the monotonic clock.
-/

inductive CircuitState where
  | closed
  | opened
  | halfOpen
  deriving DecidableEq

structure CircuitOpenError where
  name : String
  remaining : Int

structure CircuitBreakerConfig where
  failureThreshold : Nat := 5
  recoveryTimeout : Int := 30 * 1000000
  halfOpenMaxCalls : Nat := 1
  successThreshold : Nat := 2

/-- What the claims about a breaker assume of its configuration. -/
structure CircuitBreakerConfig.Positive (config : CircuitBreakerConfig) : Prop where
  failureThreshold : 1 ≤ config.failureThreshold
  halfOpenMaxCalls : 1 ≤ config.halfOpenMaxCalls
  successThreshold : 1 ≤ config.successThreshold

structure CircuitBreaker where
  name : String
  state : CircuitState := .closed
  failureCount : Nat := 0
  successCount : Nat := 0
  halfOpenCalls : Nat := 0
  lastFailureTime : Option Int := none
  openedAt : Option Int := none

namespace CircuitBreaker

variable (config : CircuitBreakerConfig)

variable (breaker : CircuitBreaker) (now : Int)

def recoveryDue : Bool :=
  match breaker.openedAt with
  | some openedAt => decide (config.recoveryTimeout ≤ now - openedAt)
  | none => false

/-- `_effective_state`: an open breaker which is due becomes half-open. -/
def effectiveState : CircuitBreaker :=
  if breaker.state = .opened ∧ breaker.recoveryDue config now = true then
    { breaker with state := .halfOpen, halfOpenCalls := 0, successCount := 0 }
  else breaker

def transitionToOpen : CircuitBreaker :=
  { breaker with state := .opened, openedAt := some now, halfOpenCalls := 0, successCount := 0 }

def transitionToClosed : CircuitBreaker :=
  { breaker with
    state := .closed, failureCount := 0, successCount := 0, halfOpenCalls := 0, openedAt := none }

def remainingRecoveryTime : Int :=
  match breaker.openedAt with
  | none => 0
  | some openedAt => max 0 (config.recoveryTimeout - (now - openedAt))

def refusal : CircuitOpenError :=
  ⟨breaker.name, breaker.remainingRecoveryTime config now⟩

def admitCall : Except CircuitOpenError Unit × CircuitBreaker :=
  let effective := breaker.effectiveState config now
  match effective.state with
  | .opened => (.error (effective.refusal config now), effective)
  | .halfOpen =>
    if config.halfOpenMaxCalls ≤ effective.halfOpenCalls then
      (.error (effective.refusal config now), effective)
    else (.ok (), { effective with halfOpenCalls := effective.halfOpenCalls + 1 })
  | .closed => (.ok (), effective)

def countFailure : CircuitBreaker :=
  { breaker with
    failureCount := breaker.failureCount + 1, lastFailureTime := some now, successCount := 0 }

def recordFailure : CircuitBreaker :=
  let counted := breaker.countFailure now
  match breaker.state with
  | .halfOpen => counted.transitionToOpen now
  | .closed =>
    if config.failureThreshold ≤ counted.failureCount then counted.transitionToOpen now
    else counted
  | .opened => counted

def recordSuccess : CircuitBreaker :=
  match breaker.state with
  | .halfOpen =>
    let counted := { breaker with successCount := breaker.successCount + 1 }
    if config.successThreshold ≤ counted.successCount then counted.transitionToClosed
    else counted
  | .closed => { breaker with failureCount := 0 }
  | .opened => breaker

end CircuitBreaker

/-- How a coroutine ends.  A cancellation is no `Exception`, so `call` records nothing of it. -/
inductive CallOutcome where
  | succeeded
  | failed
  | cancelled

structure Service where
  breaker : CircuitBreaker
  now : Int
  running : Nat

inductive ServiceInput where
  | call
  | finish (outcome : CallOutcome)
  | reset
  | wait (duration : Nat)

namespace Service

variable (config : CircuitBreakerConfig)

def call (service : Service) : Service :=
  match service.breaker.admitCall config service.now with
  | (.ok (), breaker) => { service with breaker := breaker, running := service.running + 1 }
  | (.error _, breaker) => { service with breaker := breaker }

def finish (service : Service) (outcome : CallOutcome) : Service :=
  match outcome with
  | .succeeded =>
    { service with
      breaker := service.breaker.recordSuccess config, running := service.running - 1 }
  | .failed =>
    { service with
      breaker := service.breaker.recordFailure config service.now, running := service.running - 1 }
  | .cancelled => { service with running := service.running - 1 }

def step (service : Service) : ServiceInput -> Service
  | .call => service.call config
  | .finish outcome => if service.running = 0 then service else service.finish config outcome
  | .reset => { service with breaker := service.breaker.transitionToClosed }
  | .wait duration => { service with now := service.now + duration }

/-- A new breaker at any time of the clock, with nothing running. -/
def machine (name : String) (now : Int) : Machine Service ServiceInput where
  initial := ⟨{ name := name }, now, 0⟩
  step := step config

end Service

/-! ## What admission and the ends of calls do, state by state -/

namespace CircuitBreaker

variable {config : CircuitBreakerConfig} {breaker : CircuitBreaker} {now : Int}

theorem admitCall_closed (here : breaker.state = .closed) :
    breaker.admitCall config now = (.ok (), breaker) := by
  have same : breaker.effectiveState config now = breaker := by
    refine if_neg ?_
    rintro ⟨opened, _⟩
    rw [here] at opened
    cases opened
  unfold admitCall
  simp only [same, here]

theorem admitCall_waiting (here : breaker.state = .opened)
    (early : breaker.recoveryDue config now = false) :
    breaker.admitCall config now = (.error (breaker.refusal config now), breaker) := by
  have same : breaker.effectiveState config now = breaker := by
    refine if_neg ?_
    rintro ⟨_, due⟩
    rw [early] at due
    cases due
  unfold admitCall
  simp only [same, here]

theorem admitCall_due (positive : config.Positive) (here : breaker.state = .opened)
    (due : breaker.recoveryDue config now = true) : breaker.admitCall config now =
      (.ok (), { breaker with state := .halfOpen, halfOpenCalls := 1, successCount := 0 }) := by
  have promoted : breaker.effectiveState config now =
      { breaker with state := .halfOpen, halfOpenCalls := 0, successCount := 0 } :=
    if_pos ⟨here, due⟩
  unfold admitCall
  simp only [promoted]
  exact if_neg (Nat.not_le.mpr positive.halfOpenMaxCalls)

theorem admitCall_halfOpen (here : breaker.state = .halfOpen) : breaker.admitCall config now =
      if config.halfOpenMaxCalls ≤ breaker.halfOpenCalls then
        (.error (breaker.refusal config now), breaker)
      else (.ok (), { breaker with halfOpenCalls := breaker.halfOpenCalls + 1 }) := by
  have same : breaker.effectiveState config now = breaker := by
    refine if_neg ?_
    rintro ⟨opened, _⟩
    rw [here] at opened
    cases opened
  unfold admitCall
  simp only [same, here]

theorem recordFailure_closed (here : breaker.state = .closed) : breaker.recordFailure config now =
      if config.failureThreshold ≤ (breaker.countFailure now).failureCount then
        (breaker.countFailure now).transitionToOpen now
      else breaker.countFailure now := by
  unfold recordFailure
  rw [here]

theorem recordFailure_opened (here : breaker.state = .opened) :
    breaker.recordFailure config now = breaker.countFailure now := by
  unfold recordFailure
  rw [here]

theorem recordFailure_halfOpen (here : breaker.state = .halfOpen) :
    breaker.recordFailure config now = (breaker.countFailure now).transitionToOpen now := by
  unfold recordFailure
  rw [here]

theorem recordSuccess_closed (here : breaker.state = .closed) :
    breaker.recordSuccess config = { breaker with failureCount := 0 } := by
  unfold recordSuccess
  simp only [here]

theorem recordSuccess_opened (here : breaker.state = .opened) :
    breaker.recordSuccess config = breaker := by
  unfold recordSuccess
  simp only [here]

theorem recordSuccess_halfOpen (here : breaker.state = .halfOpen) : breaker.recordSuccess config =
      if config.successThreshold ≤ breaker.successCount + 1 then
        { breaker with successCount := breaker.successCount + 1 }.transitionToClosed
      else { breaker with successCount := breaker.successCount + 1 } := by
  unfold recordSuccess
  simp only [here]

end CircuitBreaker

/-! ## What a breaker promises -/

namespace Service

/-- The three promises about a state: an open circuit refuses until its timeout
is over, probing is limited, and an idle circuit whose timeout is over admits. -/
structure Protects (config : CircuitBreakerConfig) (service : Service) : Prop where
  refusesWhileOpen : service.breaker.state = .opened ->
    service.breaker.recoveryDue config service.now = false ->
    (service.call config).running = service.running
  limitsProbes : service.breaker.state = .halfOpen -> service.running ≤ config.halfOpenMaxCalls
  recovers : service.running = 0 ->
    (service.breaker.openedAt = none ∨ service.breaker.recoveryDue config service.now = true) ->
    (service.call config).running = 1

/-- The steps which do not lead out of the promises.  Probing starts with
nothing running, since the slots count only what is admitted later; and while
every slot is taken, the last running call neither is cancelled nor succeeds
short of the threshold, since neither gives its slot back. -/
def KeepsSlots (config : CircuitBreakerConfig) (service : Service) : ServiceInput -> Prop
  | .call =>
    service.breaker.state = .opened -> service.breaker.recoveryDue config service.now = true ->
      service.running = 0
  | .finish .cancelled =>
    service.breaker.state = .halfOpen -> service.running = 1 ->
      service.breaker.halfOpenCalls < config.halfOpenMaxCalls
  | .finish .succeeded =>
    service.breaker.state = .halfOpen -> service.running = 1 ->
      service.breaker.halfOpenCalls < config.halfOpenMaxCalls ∨
        config.successThreshold ≤ service.breaker.successCount + 1
  | _ => True

structure Accounted (config : CircuitBreakerConfig) (service : Service) : Prop where
  opened : service.breaker.state = .opened -> ∃ time, service.breaker.openedAt = some time
  covered : service.breaker.state = .halfOpen -> service.running ≤ service.breaker.halfOpenCalls
  limited : service.breaker.state = .halfOpen ->
    service.breaker.halfOpenCalls ≤ config.halfOpenMaxCalls
  spare : service.breaker.state = .halfOpen -> service.running = 0 ->
    service.breaker.halfOpenCalls < config.halfOpenMaxCalls

variable {config : CircuitBreakerConfig} {service : Service}

theorem accounted_of_closed (here : service.breaker.state = .closed) :
    Accounted config service := by
  constructor
  all_goals
    intro other
    rw [here] at other
    cases other

theorem accounted_of_opened (here : service.breaker.state = .opened)
    (time : ∃ time, service.breaker.openedAt = some time) : Accounted config service := by
  refine ⟨fun _ => time, ?_, ?_, ?_⟩
  all_goals
    intro other
    rw [here] at other
    cases other

theorem accounted_call (positive : config.Positive) (accounted : Accounted config service)
    (keeps : KeepsSlots config service .call) : Accounted config (service.call config) := by
  unfold call
  cases here : service.breaker.state with
  | closed =>
    rw [CircuitBreaker.admitCall_closed here]
    exact accounted_of_closed here
  | opened =>
    cases due : service.breaker.recoveryDue config service.now with
    | false =>
      rw [CircuitBreaker.admitCall_waiting here due]
      exact accounted_of_opened here (accounted.opened here)
    | true =>
      rw [CircuitBreaker.admitCall_due positive here due]
      have idle := keeps here due
      refine ⟨?_, ?_, fun _ => positive.halfOpenMaxCalls, ?_⟩
      · intro other
        cases other
      · intro _
        simp only [idle, Nat.zero_add, Nat.le_refl]
      · intro _ none
        cases none
  | halfOpen =>
    rw [CircuitBreaker.admitCall_halfOpen here]
    by_cases taken : config.halfOpenMaxCalls ≤ service.breaker.halfOpenCalls
    · rw [if_pos taken]
      exact accounted
    · rw [if_neg taken]
      refine ⟨?_, ?_, ?_, ?_⟩
      · intro other
        exact absurd (here.symm.trans other) CircuitState.noConfusion
      · intro _
        exact Nat.succ_le_succ (accounted.covered here)
      · intro _
        exact Nat.not_le.mp taken
      · intro _ none
        cases none

theorem accounted_succeeded (accounted : Accounted config service)
    (keeps : KeepsSlots config service (.finish .succeeded)) (some : service.running ≠ 0) :
    Accounted config (service.finish config .succeeded) := by
  unfold finish
  cases here : service.breaker.state with
  | closed =>
    rw [CircuitBreaker.recordSuccess_closed here]
    exact accounted_of_closed here
  | opened =>
    rw [CircuitBreaker.recordSuccess_opened here]
    exact accounted_of_opened here (accounted.opened here)
  | halfOpen =>
    rw [CircuitBreaker.recordSuccess_halfOpen here]
    by_cases enough : config.successThreshold ≤ service.breaker.successCount + 1
    · rw [if_pos enough]
      exact accounted_of_closed rfl
    · rw [if_neg enough]
      refine ⟨?_, ?_, fun _ => accounted.limited here, ?_⟩
      · intro other
        exact absurd (here.symm.trans other) CircuitState.noConfusion
      · intro _
        exact (Nat.sub_le _ _).trans (accounted.covered here)
      · intro _ none
        have last : service.running = 1 := by
          simp only at none
          omega
        exact (keeps here last).resolve_right enough

theorem accounted_failed (accounted : Accounted config service) :
    Accounted config (service.finish config .failed) := by
  unfold finish
  cases here : service.breaker.state with
  | closed =>
    rw [CircuitBreaker.recordFailure_closed here]
    by_cases enough : config.failureThreshold ≤
        (service.breaker.countFailure service.now).failureCount
    · rw [if_pos enough]
      exact accounted_of_opened rfl ⟨service.now, rfl⟩
    · rw [if_neg enough]
      exact accounted_of_closed here
  | opened =>
    rw [CircuitBreaker.recordFailure_opened here]
    exact accounted_of_opened here (accounted.opened here)
  | halfOpen =>
    rw [CircuitBreaker.recordFailure_halfOpen here]
    exact accounted_of_opened rfl ⟨service.now, rfl⟩

theorem accounted_cancelled (accounted : Accounted config service)
    (keeps : KeepsSlots config service (.finish .cancelled)) (some : service.running ≠ 0) :
    Accounted config (service.finish config .cancelled) := by
  refine ⟨accounted.opened, ?_, accounted.limited, ?_⟩
  · intro here
    exact (Nat.sub_le _ _).trans (accounted.covered here)
  · intro here none
    have last : service.running = 1 := by
      change service.running - 1 = 0 at none
      omega
    exact keeps here last

theorem accounted_step (positive : config.Positive) (input : ServiceInput)
    (accounted : Accounted config service) (keeps : KeepsSlots config service input) :
    Accounted config (service.step config input) := by
  cases input with
  | call => exact accounted_call positive accounted keeps
  | finish outcome =>
    change Accounted config (if service.running = 0 then service else service.finish config outcome)
    by_cases none : service.running = 0
    · rw [if_pos none]
      exact accounted
    · rw [if_neg none]
      cases outcome with
      | succeeded => exact accounted_succeeded accounted keeps none
      | failed => exact accounted_failed accounted
      | cancelled => exact accounted_cancelled accounted keeps none
  | reset => exact accounted_of_closed rfl
  | wait duration => exact ⟨accounted.opened, accounted.covered, accounted.limited, accounted.spare⟩

theorem running_of_admitted {breaker : CircuitBreaker}
    (admitted : service.breaker.admitCall config service.now = (.ok (), breaker)) :
    (service.call config).running = service.running + 1 := by
  unfold call
  rw [admitted]

theorem protects_of_accounted (positive : config.Positive) (accounted : Accounted config service) :
    Protects config service := by
  constructor
  · intro here early
    unfold call
    rw [CircuitBreaker.admitCall_waiting here early]
  · intro here
    exact (accounted.covered here).trans (accounted.limited here)
  · intro idle elapsed
    rw [← Nat.zero_add 1, ← idle]
    cases here : service.breaker.state with
    | closed => exact running_of_admitted (CircuitBreaker.admitCall_closed here)
    | opened =>
      rcases accounted.opened here with ⟨time, opened⟩
      rw [opened] at elapsed
      exact running_of_admitted
        (CircuitBreaker.admitCall_due positive here (elapsed.resolve_left (Option.some_ne_none _)))
    | halfOpen =>
      refine running_of_admitted ((CircuitBreaker.admitCall_halfOpen here).trans (if_neg ?_))
      exact Nat.not_le.mpr (accounted.spare here idle)

/-- In every run which keeps the slots the breaker protects in every state. -/
theorem breaker_protects (config : CircuitBreakerConfig) (positive : config.Positive)
    (name : String) (start : Int) (inputs : List ServiceInput)
    (keeps : (machine config name start).EveryStep (KeepsSlots config) inputs) :
    (machine config name start).EveryState (Protects config) inputs := by
  have accounted := (machine config name start).guarded_everyState (Accounted config)
    (KeepsSlots config) (accounted_of_closed rfl)
    (fun _ input accounted keeps => accounted_step positive input accounted keeps) inputs keeps
  intro before rest split
  exact protects_of_accounted positive (accounted before rest split)

def twoProbes : CircuitBreakerConfig := { halfOpenMaxCalls := 2, failureThreshold := 1 }

theorem breaker_protects_twoProbes : (machine twoProbes "llm" 0).EveryState (Protects twoProbes)
      [.call, .finish .failed, .wait 30000000, .call, .call, .finish .succeeded,
        .finish .succeeded] :=
  breaker_protects twoProbes ⟨by decide, by decide, by decide⟩ "llm" 0 _
    (by
      rw [Machine.everyStep_iff_stepsFrom]
      simp only [Machine.StepsFrom, KeepsSlots]
      decide)

/-- The configuration that comes by default probes with one call and closes
after two successes: the first success leaves the only slot taken. -/
def stuck : List ServiceInput :=
  (List.replicate 5 [.call, .finish .failed]).flatten ++ [.wait 30000000, .call, .finish .succeeded]

theorem breaker_stuck : Not (∀ (config : CircuitBreakerConfig), config.Positive ->
      ∀ (name : String) (start : Int) (inputs : List ServiceInput),
        (machine config name start).EveryState (Protects config) inputs) := by
  intro claim
  have protects := claim {} ⟨by decide, by decide, by decide⟩ "llm" 0 stuck stuck []
    (List.append_nil _).symm
  exact absurd (protects.recovers (by decide) (by decide)) (by decide)

/-! ## The counters of a breaker -/

/-- The counts of each state stay below what leads out of it, and only a closed breaker has not been
opened at some time. -/
structure Coherent (config : CircuitBreakerConfig) (breaker : CircuitBreaker) : Prop where
  closed : breaker.state = .closed -> breaker.failureCount < config.failureThreshold
  opened : breaker.openedAt = none <-> breaker.state = .closed
  halfOpen : breaker.state = .halfOpen ->
    breaker.successCount < config.successThreshold ∧ breaker.halfOpenCalls ≤ config.halfOpenMaxCalls

section

variable {breaker : CircuitBreaker} {now : Int}

theorem coherent_closed (positive : config.Positive) : Coherent config breaker.transitionToClosed :=
  ⟨fun _ => positive.failureThreshold, iff_of_true rfl rfl, nofun⟩

theorem coherent_opened : Coherent config (breaker.transitionToOpen now) :=
  ⟨nofun, iff_of_false nofun nofun, nofun⟩

theorem coherent_admitCall (positive : config.Positive) (coherent : Coherent config breaker) :
    Coherent config (breaker.admitCall config now).2 := by
  cases here : breaker.state with
  | closed =>
    rw [CircuitBreaker.admitCall_closed here]
    exact coherent
  | opened =>
    cases due : breaker.recoveryDue config now with
    | false =>
      rw [CircuitBreaker.admitCall_waiting here due]
      exact coherent
    | true =>
      have stamped : breaker.openedAt ≠ none := fun never =>
        nomatch here.symm.trans (coherent.opened.mp never)
      rw [CircuitBreaker.admitCall_due positive here due]
      exact ⟨nofun, iff_of_false stamped nofun,
        fun _ => ⟨positive.successThreshold, positive.halfOpenMaxCalls⟩⟩
  | halfOpen =>
    rw [CircuitBreaker.admitCall_halfOpen here]
    split
    case isTrue => exact coherent
    case isFalse room =>
      exact ⟨coherent.closed, coherent.opened,
        fun half => ⟨(coherent.halfOpen half).1, Nat.lt_of_not_le room⟩⟩

theorem coherent_recordFailure (coherent : Coherent config breaker) :
    Coherent config (breaker.recordFailure config now) := by
  cases here : breaker.state with
  | closed =>
    rw [CircuitBreaker.recordFailure_closed here]
    split
    case isTrue => exact coherent_opened
    case isFalse below =>
      exact ⟨fun _ => Nat.lt_of_not_le below, coherent.opened,
        fun half => (nomatch here.symm.trans half)⟩
  | opened =>
    rw [CircuitBreaker.recordFailure_opened here]
    exact ⟨fun closed => (nomatch here.symm.trans closed), coherent.opened,
      fun half => (nomatch here.symm.trans half)⟩
  | halfOpen =>
    rw [CircuitBreaker.recordFailure_halfOpen here]
    exact coherent_opened

theorem coherent_recordSuccess (positive : config.Positive) (coherent : Coherent config breaker) :
    Coherent config (breaker.recordSuccess config) := by
  cases here : breaker.state with
  | closed =>
    rw [CircuitBreaker.recordSuccess_closed here]
    exact ⟨fun _ => positive.failureThreshold, coherent.opened,
      fun half => (nomatch here.symm.trans half)⟩
  | opened =>
    rw [CircuitBreaker.recordSuccess_opened here]
    exact coherent
  | halfOpen =>
    rw [CircuitBreaker.recordSuccess_halfOpen here]
    split
    case isTrue => exact coherent_closed positive
    case isFalse below =>
      exact ⟨coherent.closed, coherent.opened,
        fun half => ⟨Nat.lt_of_not_le below, (coherent.halfOpen half).2⟩⟩

end

theorem coherent_always (positive : config.Positive) (name : String) (now : Int)
    (inputs : List ServiceInput) : Coherent config ((machine config name now).after inputs).breaker := by
  refine (machine config name now).invariant_after (fun service => Coherent config service.breaker)
    (@coherent_closed config { name } positive) (fun service input coherent => ?_) inputs
  cases input with
  | call =>
    have next := @coherent_admitCall _ _ service.now positive coherent
    unfold machine step call
    dsimp only
    split <;> rename_i admitted <;> rw [admitted] at next <;> exact next
  | finish outcome =>
    unfold machine step
    dsimp only
    split
    · exact coherent
    · cases outcome with
      | succeeded => exact coherent_recordSuccess positive coherent
      | failed => exact coherent_recordFailure coherent
      | cancelled => exact coherent
  | reset => exact coherent_closed positive
  | wait => exact coherent

def probed : List ServiceInput :=
  (List.replicate 5 [ServiceInput.call, .finish .failed]).flatten ++ [.wait 30000000, .call]

theorem coherent_default : ((machine {} "llm" 0).after probed).breaker.state = .halfOpen ∧
    Coherent {} ((machine {} "llm" 0).after probed).breaker :=
  ⟨by decide, coherent_always ⟨by decide, by decide, by decide⟩ "llm" 0 _⟩

end Service

end Core
end BreadMind
