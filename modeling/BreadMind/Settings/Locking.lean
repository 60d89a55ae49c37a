import BreadMind.Settings.Pipeline

namespace BreadMind
namespace Settings

open Execution

/-!
# One call at a time for each key

What a step can do, said once: a call is answered, queued or started, or a
running call goes on.  From this, the calls that hold the lock of a key are at
most one, and the value which such a call is about to store is computed from
what is stored under the key at that moment.
-/

/-! ## What a running call can do -/

inductive Resumes (config : Config) (state : State) (call : Nat) (request : Request)
    (approval : Option String) : Stage -> Event -> Change -> Prop where
  | acquired (prepared : Json) (free : state.lockedBy request.key = none) :
      Resumes config state call request approval (.acquiring prepared) .acquired
        { stage := .locked prepared }
  | unread (prepared : Json) (error : PyError) (draws : List String) :
      Resumes config state call request approval (.locked prepared) (.read (some error) draws)
        { stage := stop request approval (.raised error) }
  | read (prepared : Json) (draws : List String) (onStore : request.operation.onStore = true) :
      Resumes config state call request approval (.locked prepared) (.read none draws)
        { stage := afterRead config request approval draws prepared (state.stored request.key) }
  | vault (prepared : Json) (failure : Option PyError) (change : Change)
      (called : vaultCall state call request approval failure = some change) :
      Resumes config state call request approval (.locked prepared) (.vault failure) change
  | written (old new : Json) :
      Resumes config state call request approval (.writing old new) (.wrote .done)
        { stage := .auditing old new, stored := some new
          effects := [.stored call request request.key new] }
  | unwritten (old new : Json) (error : PyError) :
      Resumes config state call request approval (.writing old new) (.wrote (.failed error))
        { stage := stop request approval (.raised error) }
  | writtenLate (old new : Json) (error : PyError) :
      Resumes config state call request approval (.writing old new) (.wrote (.failedLate error))
        { stage := stop request approval (.raised error), stored := some new
          effects := [.stored call request request.key new] }
  | audited (old new : Json) (auditId : Option Int) :
      Resumes config state call request approval (.auditing old new) (.audited (.ok auditId))
        { stage := .reloading old new auditId (dispatched config request.key)
          effects := [.audited call (auditRecord request old new)] }
  | unaudited (old new : Json) (error : PyError) :
      Resumes config state call request approval (.auditing old new) (.audited (.error error))
        { stage := stop request approval (.raised error)
          effects := [.audited call (auditRecord request old new)] }
  | reloaded (old new : Json) (auditId : Option Int) (tasks : List ReloadTask) (index : Nat)
      (subscription : Subscription) (failure : Option PyError)
      (waiting : tasks[index]? = some { subscription, ended := none }) :
      Resumes config state call request approval (.reloading old new auditId tasks)
        (.reloaded index failure)
        { stage := .reloading old new auditId
            (tasks.set index { subscription, ended := some failure })
          copy := subscription.copy new
          effects := [.reloaded call subscription
            { key := request.key, operation := request.operation.name, old, new }] }
  | gathered (old new : Json) (auditId : Option Int) (tasks : List ReloadTask)
      (all : tasks.all (fun task => task.ended.isSome) = true) :
      Resumes config state call request approval (.reloading old new auditId tasks) .gathered
        { stage := .emitting (buildEventPayload config request old new auditId)
            (succeeded request auditId tasks) }
  | emitted (payload : Option Payload) (result : SetResult) :
      Resumes config state call request approval (.emitting payload result) .emitted
        { stage := .returned result, effects := payload.toList.map (Effect.changed call) }
  | cancelled (stage : Stage) (runs : stage.ended = false) :
      Resumes config state call request approval stage .cancelled { stage := .raised cancelledError }

variable {config : Config} {state : State} {call : Nat} {running : Call} {change : Change}

theorem resumes_of_resume {event : Event}
    (resumed : resume config state call running event = some change) :
    Resumes config state call running.request running.approval running.stage event change := by
  unfold resume at resumed
  dsimp only at resumed
  split at resumed
  case h_1 _ _ prepared same =>
    split at resumed
    case isTrue free =>
      cases resumed
      rw [same]
      exact .acquired prepared free
    case isFalse => cases resumed
  case h_2 _ _ prepared failure draws same =>
    split at resumed
    case isTrue onStore =>
      rw [same]
      cases failure with
      | some error =>
        cases resumed
        exact .unread prepared error draws
      | none =>
        cases resumed
        exact .read prepared draws onStore
    case isFalse => cases resumed
  case h_3 _ _ prepared failure same =>
    rw [same]
    exact .vault prepared failure change resumed
  case h_4 _ _ old new same =>
    cases resumed
    rw [same]
    exact .written old new
  case h_5 _ _ old new error same =>
    cases resumed
    rw [same]
    exact .unwritten old new error
  case h_6 _ _ old new error same =>
    cases resumed
    rw [same]
    exact .writtenLate old new error
  case h_7 _ _ old new auditId same =>
    cases resumed
    rw [same]
    exact .audited old new auditId
  case h_8 _ _ old new error same =>
    cases resumed
    rw [same]
    exact .unaudited old new error
  case h_9 _ _ old new auditId tasks index failure same =>
    split at resumed
    case h_1 subscription waiting =>
      cases resumed
      rw [same]
      exact .reloaded old new auditId tasks index subscription failure waiting
    case h_2 => cases resumed
  case h_10 _ _ old new auditId tasks same =>
    split at resumed
    case isTrue all =>
      cases resumed
      rw [same]
      exact .gathered old new auditId tasks all
    case isFalse => cases resumed
  case h_11 _ _ payload result same =>
    cases resumed
    rw [same]
    exact .emitted payload result
  case h_12 =>
    split at resumed
    case isTrue => cases resumed
    case isFalse runs =>
      cases resumed
      exact .cancelled running.stage (Bool.eq_false_of_not_eq_true runs)
  case h_13 => cases resumed

inductive Moves (config : Config) (state : State) : Input -> State -> List Effect -> Prop where
  | idle (input : Input) : Moves config state input state []
  | unknown (id : Nat) (approvalId : String) (draws : List String) (result : SetResult) :
      Moves config state (.resolve id approvalId draws) state [.answered id result]
  | refused (id : Nat) (request : Request) (underCap : Bool) (hex : String) (draws : List String)
      (result : SetResult) (fresh : state.calls id = none) (denied : result.ok = false) :
      Moves config state (.call id request underCap hex draws)
        (state.place id ⟨request, none, .returned result⟩) []
  | queued (id : Nat) (request : Request) (underCap : Bool) (hex : String) (draws : List String)
      (fresh : state.calls id = none) :
      Moves config state (.call id request underCap hex draws)
        (submit state id request hex).1 (submit state id request hex).2
  | started (id : Nat) (request : Request) (underCap : Bool) (hex : String) (draws : List String)
      (fresh : state.calls id = none) (runs : request.decide config underCap = .run) :
      Moves config state (.call id request underCap hex draws)
        (state.place id ⟨request, none, begin config request none draws⟩) []
  | approved (id : Nat) (approvalId : String) (entry : PendingEntry) (draws : List String)
      (fresh : state.calls id = none) (waiting : state.entries approvalId = some entry) :
      Moves config state (.resolve id approvalId draws)
        { state.place id
              ⟨entry.run, some approvalId, begin config entry.run (some approvalId) draws⟩ with
            entries := Function.update state.entries approvalId none }
        [.approved id approvalId entry.submission]
  | resumed (id : Nat) (running : Call) (event : Event) (change : Change)
      (known : state.calls id = some running)
      (resumed : resume config state id running event = some change) :
      Moves config state (.resume id event) (state.apply id running change) change.effects

theorem prologue_denied {underCap : Bool} {actor operation key : String}
    {refusal : Option Refusal} {waits : Bool} {result : SetResult}
    (answered : prologue config underCap actor operation key refusal waits = .answer result) :
    result.ok = false := by
  unfold prologue at answered
  split at answered
  · cases answered
    rfl
  · unfold checkRate at answered
    split at answered
    case h_1 limited =>
      split at limited <;> cases limited
      cases answered
      rfl
    case h_2 => cases waits <;> cases answered

theorem decide_prologue (config : Config) (underCap : Bool) (request : Request) :
    ∃ name key refusal waits, request.decide config underCap =
        prologue config underCap request.actor name key refusal waits := by
  rcases request with ⟨operation, actor⟩
  cases operation with
  | storeVaultCredential vaultId =>
    exact ⟨"credential_store", vaultId, none, isAgent actor && config.approvals, rfl⟩
  | deleteVaultCredential vaultId =>
    exact ⟨"credential_delete", vaultId, none, isAgent actor && config.approvals, rfl⟩
  | _ => exact ⟨_, _, _, _, rfl⟩

variable {request : Request}

theorem decide_denied {underCap : Bool} {result : SetResult}
    (answered : request.decide config underCap = .answer result) : result.ok = false := by
  rcases decide_prologue config underCap request with ⟨name, key, refusal, waits, same⟩
  exact prologue_denied (same.symm.trans answered)

theorem step_moves (config : Config) (state : State) (input : Input) :
    Moves config state input (step config state input).1 (step config state input).2 := by
  cases input with
  | call id request underCap hex draws =>
    unfold step
    dsimp only
    split
    case h_1 => exact .idle _
    case h_2 fresh =>
      unfold callStep
      split
      case h_1 result answered =>
        exact .refused id request underCap hex draws result fresh (decide_denied answered)
      case h_2 => exact .queued id request underCap hex draws fresh
      case h_3 runs => exact .started id request underCap hex draws fresh runs
  | resolve id approvalId draws =>
    unfold step
    dsimp only
    split
    case h_1 => exact .idle _
    case h_2 fresh =>
      unfold resolveStep
      split
      case isTrue =>
        split
        case h_1 => exact .unknown id approvalId draws _
        case h_2 entry waiting => exact .approved id approvalId entry draws fresh waiting
      case isFalse => exact .unknown id approvalId draws _
  | resume id event =>
    unfold step
    dsimp only
    split
    case h_1 running known =>
      unfold resumeStep
      split
      case h_1 => exact .idle _
      case h_2 change resumed => exact .resumed id running event change known resumed
    case h_2 => exact .idle _

/-! ## What a call is about to store -/

/-- The value that a `set` carries to its lock has passed the validator. -/
def Prepared (config : Config) (request : Request) (prepared : Json) : Prop :=
  match request.operation with
  | .set key value .. => ∃ draws, validated config key draws value = .ok prepared
  | _ => True

def Stage.Current (config : Config) (request : Request) (stored : Json) : Stage -> Prop
  | acquiring prepared => Prepared config request prepared
  | locked prepared => Prepared config request prepared
  | writing _ new => request.operation.onStore = true ∧
      ∃ draws, request.operation.applied config draws stored = .ok new
  | auditing _ new => request.operation.onStore = true -> stored = new
  | reloading _ new _ _ => request.operation.onStore = true -> stored = new
  | _ => True

variable {stored : Json} {stage : Stage}

theorem Stage.Current.of_ended
    (ended : stage.ended = true) : stage.Current config request stored := by
  cases stage with
  | returned result => trivial
  | raised error => trivial
  | acquiring prepared | locked prepared | writing old new | auditing old new
  | reloading old new auditId tasks | emitting payload result => cases ended

theorem Stage.Current.unlocked {other : Json} (current : stage.Current config request stored)
    (free : stage.holdsLock = false) : stage.Current config request other := by
  cases stage with
  | acquiring prepared => exact current
  | locked prepared | writing old new | auditing old new | reloading old new auditId tasks =>
    cases free
  | emitting payload result | returned result | raised error => trivial

theorem stop_ended (request : Request) (approval : Option String) (stopped : Stopped) :
    (stop request approval stopped).ended = true := by
  unfold stop
  split
  · rfl
  · split <;> rfl

theorem ended_unlocked (ended : stage.ended = true) : stage.holdsLock = false := by
  cases stage <;> first | rfl | cases ended

theorem begin_current (config : Config) (request : Request) (approval : Option String)
    (draws : List String) (stored : Json) :
    (begin config request approval draws).Current config request stored := by
  unfold begin
  split
  case h_1 key value summary auditKey kind same =>
    split
    case h_1 prepared valid =>
      change Prepared config request prepared
      unfold Prepared
      rw [same]
      exact ⟨draws, valid⟩
    case h_2 => exact .of_ended (stop_ended _ _ _)
  case h_2 other =>
    change Prepared config request .null
    unfold Prepared
    split
    case h_1 key value summary auditKey kind same => exact False.elim (other _ _ _ _ _ same)
    case h_2 => trivial

theorem begin_unlocked (config : Config) (request : Request) (approval : Option String)
    (draws : List String) : (begin config request approval draws).holdsLock = false := by
  unfold begin
  split
  · split
    · rfl
    · exact ended_unlocked (stop_ended _ _ _)
  · rfl

theorem afterRead_current (config : Config) (request : Request) (approval : Option String)
    (draws : List String) {prepared : Json} (ready : Prepared config request prepared)
    (onStore : request.operation.onStore = true) :
    (afterRead config request approval draws prepared stored).Current config request stored := by
  unfold afterRead
  dsimp only
  split
  case h_1 new computed =>
    refine ⟨onStore, ?_⟩
    split at computed
    case h_1 key value summary auditKey kind same =>
      cases computed
      unfold Prepared at ready
      rw [same] at ready ⊢
      exact ready
    case h_2 => exact ⟨draws, computed⟩
  case h_2 => exact .of_ended (stop_ended _ _ _)

theorem vaultCall_offStore {approval : Option String} {failure : Option PyError}
    (called : vaultCall state call request approval failure = some change) :
    request.operation.onStore = false ∧ change.stored = none ∧ change.copy = none ∧
      (change.stage = .auditing .null .null ∨ change.stage.ended = true) := by
  unfold vaultCall at called
  split at called
  case h_1 key value description summary same =>
    rw [same]
    cases failure with
    | some error =>
      cases called
      exact ⟨rfl, rfl, rfl, .inr (stop_ended request approval (.raised error))⟩
    | none =>
      cases called
      exact ⟨rfl, rfl, rfl, .inl rfl⟩
  case h_2 vaultId value metadata auditKey summary same =>
    rw [same]
    cases failure with
    | some error =>
      cases called
      exact ⟨rfl, rfl, rfl, .inr (stop_ended request approval (.refused (.vault error)))⟩
    | none =>
      cases called
      exact ⟨rfl, rfl, rfl, .inl rfl⟩
  case h_3 vaultId auditKey summary same =>
    rw [same]
    cases failure with
    | some error =>
      cases called
      exact ⟨rfl, rfl, rfl, .inr (stop_ended request approval (.refused (.vault error)))⟩
    | none =>
      dsimp only at called
      split at called <;> cases called
      · exact ⟨rfl, rfl, rfl, .inl rfl⟩
      · exact ⟨rfl, rfl, rfl, .inr (stop_ended request approval (.refused .credentialNotFound))⟩
  case h_4 key same =>
    rw [same]
    cases failure with
    | some error =>
      cases called
      exact ⟨rfl, rfl, rfl, .inr (stop_ended request approval (.raised error))⟩
    | none =>
      cases called
      exact ⟨rfl, rfl, rfl, .inl rfl⟩
  case h_5 => cases called

section Resumed

variable {config : Config} {state : State} {call : Nat} {request : Request}
variable {approval : Option String} {stage : Stage} {event : Event} {change : Change}

theorem Resumes.locks (resumes : Resumes config state call request approval stage event change)
    (holds : change.stage.holdsLock = true) :
    stage.holdsLock = true ∨ state.lockedBy request.key = none := by
  cases resumes with
  | acquired prepared free => exact .inr free
  | unread | read | vault | written | unwritten | writtenLate | audited | unaudited | reloaded
  | gathered => exact .inl rfl
  | emitted => cases holds
  | cancelled => cases holds

theorem Resumes.stores (resumes : Resumes config state call request approval stage event change)
    (free : stage.holdsLock = false) : change.stored = none := by
  cases resumes with
  | acquired | emitted | cancelled => rfl
  | unread | read | vault | written | unwritten | writtenLate | audited | unaudited | reloaded
  | gathered => cases free

theorem Resumes.current (resumes : Resumes config state call request approval stage event change)
    (current : stage.Current config request (state.stored request.key)) :
    change.stage.Current config request (change.stored.getD (state.stored request.key)) := by
  cases resumes with
  | acquired => exact current
  | unread prepared error draws => exact .of_ended (stop_ended request approval (.raised error))
  | read prepared draws onStore => exact afterRead_current config request approval draws current onStore
  | vault prepared failure change called =>
    rcases vaultCall_offStore called with ⟨offStore, _, _, audits | ended⟩
    · rw [audits]
      intro onStore
      rw [offStore] at onStore
      cases onStore
    · exact .of_ended ended
  | written => exact fun _ => rfl
  | unwritten old new error => exact .of_ended (stop_ended request approval (.raised error))
  | writtenLate old new error => exact .of_ended (stop_ended request approval (.raised error))
  | audited => exact current
  | unaudited old new error => exact .of_ended (stop_ended request approval (.raised error))
  | reloaded => exact current
  | gathered | emitted | cancelled => trivial

end Resumed

theorem place_calls {id : Nat} {found : Call}
    (here : (state.place id running).calls call = some found) :
    (call = id ∧ found = running) ∨ (call ≠ id ∧ state.calls call = some found) := by
  unfold State.place at here
  dsimp only at here
  rw [Function.update_apply] at here
  split at here
  case isTrue same =>
    cases here
    exact .inl ⟨same, rfl⟩
  case isFalse different => exact .inr ⟨different, here⟩

theorem apply_calls {id : Nat}
    {found : Call} (here : (state.apply id running change).calls call = some found) :
    (call = id ∧ found = { running with stage := change.stage }) ∨
      (call ≠ id ∧ state.calls call = some found) := by
  unfold State.apply at here
  dsimp only at here
  rw [Function.update_apply] at here
  split at here
  case isTrue same =>
    cases here
    exact .inl ⟨same, rfl⟩
  case isFalse different => exact .inr ⟨different, here⟩

theorem apply_calls_self (state : State) (id : Nat) (running : Call) (change : Change) :
    (state.apply id running change).calls id = some { running with stage := change.stage } := by
  unfold State.apply
  dsimp only
  rw [Function.update_self]

theorem apply_calls_other (state : State) {id : Nat} (running : Call) (change : Change)
    (different : call ≠ id) : (state.apply id running change).calls call = state.calls call := by
  unfold State.apply
  dsimp only
  rw [Function.update_of_ne different]

theorem apply_stored_other (state : State) (id : Nat) (change : Change)
    {key : String} (different : running.request.key ≠ key) :
    (state.apply id running change).stored key = state.stored key := by
  unfold State.apply
  dsimp only
  cases change.stored with
  | none => rfl
  | some value => exact Function.update_of_ne (Ne.symm different) ..

structure Locked (config : Config) (state : State) : Prop where
  held : ∀ call running, state.calls call = some running ->
    running.stage.holdsLock = true -> state.lockedBy running.request.key = some call
  current : ∀ call running, state.calls call = some running ->
    running.stage.Current config running.request (state.stored running.request.key)

namespace Locked

variable {config : Config} {state : State}

variable {running : Call}

theorem unique (locked : Locked config state) {call other : Nat} {second : Call}
    (known : state.calls call = some running) (beside : state.calls other = some second)
    (same : second.request.key = running.request.key)
    (holds : running.stage.holdsLock = true) (too : second.stage.holdsLock = true) :
    other = call := by
  have first := locked.held call running known holds
  rw [← same, locked.held other second beside too] at first
  exact Option.some.inj first

theorem place (locked : Locked config state) {id : Nat} (free : running.stage.holdsLock = false)
    (current : running.stage.Current config running.request (state.stored running.request.key)) :
    Locked config (state.place id running) where
  held := by
    intro call placed known holds
    rcases place_calls known with ⟨_, same⟩ | ⟨_, before⟩
    · rw [same, free] at holds
      cases holds
    · exact locked.held call placed before holds
  current := by
    intro call placed known
    rcases place_calls known with ⟨_, same⟩ | ⟨_, before⟩
    · rw [same]
      exact current
    · exact locked.current call placed before

theorem apply (locked : Locked config state) {id : Nat} {event : Event}
    {change : Change} (known : state.calls id = some running)
    (resumes : Resumes config state id running.request running.approval running.stage event change) :
    Locked config (state.apply id running change) where
  held := by
    intro call after found holds
    rcases apply_calls found with ⟨same, equal⟩ | ⟨different, found⟩
    · subst equal
      change change.stage.holdsLock = true at holds
      unfold State.apply
      dsimp only
      rw [if_pos holds, same, Function.update_self]
    · have before := locked.held call after found holds
      unfold State.apply
      dsimp only
      by_cases key : after.request.key = running.request.key
      · rw [key] at before ⊢
        cases taken : change.stage.holdsLock with
        | true =>
          rcases resumes.locks taken with holding | free
          · exact absurd (locked.unique known found key holding holds) different
          · rw [before] at free
            cases free
        | false =>
          cases holding : running.stage.holdsLock with
          | true => exact absurd (locked.unique known found key holding holds) different
          | false => exact before
      · split
        · rw [Function.update_of_ne key]
          exact before
        · split
          · rw [Function.update_of_ne key]
            exact before
          · exact before
  current := by
    intro call after found
    unfold State.apply
    dsimp only
    rcases apply_calls found with ⟨_, equal⟩ | ⟨different, found⟩
    · subst equal
      have current := resumes.current (locked.current id running known)
      cases stores : change.stored with
      | none =>
        rw [stores] at current
        exact current
      | some value =>
        rw [stores] at current
        change change.stage.Current config running.request _
        dsimp only
        rw [Function.update_self]
        exact current
    · have current := locked.current call after found
      cases stores : change.stored with
      | none => exact current
      | some value =>
        dsimp only
        by_cases key : after.request.key = running.request.key
        · refine current.unlocked (Bool.eq_false_of_not_eq_true ?_)
          intro holds
          cases holding : running.stage.holdsLock with
          | true => exact different (locked.unique known found key holding holds)
          | false =>
            rw [resumes.stores holding] at stores
            cases stores
        · rw [Function.update_of_ne key]
          exact current

end Locked

theorem Moves.locked {after : State} {input : Input} {effects : List Effect}
    (moves : Moves config state input after effects) (locked : Locked config state) :
    Locked config after := by
  cases moves with
  | idle => exact locked
  | unknown => exact locked
  | refused => exact locked.place rfl trivial
  | queued id request underCap hex draws =>
    have placed : Locked config (state.place id
        ⟨request, none, .returned (pendingResult request ("approve-" ++ hex))⟩) :=
      locked.place rfl trivial
    exact ⟨placed.held, placed.current⟩
  | started id request underCap hex draws =>
    exact locked.place (begin_unlocked config request none draws)
      (begin_current config request none draws _)
  | approved id approvalId entry draws =>
    have placed : Locked config (state.place id
        ⟨entry.run, some approvalId, begin config entry.run (some approvalId) draws⟩) :=
      locked.place (begin_unlocked config entry.run (some approvalId) draws)
        (begin_current config entry.run (some approvalId) draws _)
    exact ⟨placed.held, placed.current⟩
  | resumed id running event change known resumed =>
    exact locked.apply known (resumes_of_resume resumed)

theorem locked_after (config : Config) (start : Start) (inputs : List Input) :
    Locked config ((service config start).after inputs) := by
  refine (service config start).invariant_after (Locked config) ?_ ?_ inputs
  · constructor <;> intro call running known <;> cases known
  · intro state input locked
    exact (step_moves config state input).locked locked

/-- The lock of a key is held by one call at most, and what that call is about to store was worked out
from what is stored. -/
structure Excluded (config : Config) (state : State) : Prop where
  alone : ∀ call other first second, state.calls call = some first -> state.calls other = some second ->
    second.request.key = first.request.key -> first.stage.holdsLock = true ->
    second.stage.holdsLock = true -> other = call
  current : ∀ call running, state.calls call = some running ->
    running.stage.Current config running.request (state.stored running.request.key)

theorem excluded_always (config : Config) (start : Start) (inputs : List Input) :
    Excluded config ((service config start).after inputs) where
  alone _ _ _ _ known beside same holds too :=
    (locked_after config start inputs).unique known beside same holds too
  current := (locked_after config start inputs).current

end Settings
end BreadMind
