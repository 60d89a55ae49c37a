import BreadMind.Settings.Locking
import BreadMind.Execution.TwoRuns
import Mathlib.Data.Option.NAry

namespace BreadMind
namespace Settings

open Execution

/-!
# Where the plaintext of a credential goes

Two runs are compared which differ in nothing but the plaintexts of
credentials.  The settings store, the audit sink, the reload subscribers and
the subscribers of `SETTINGS_CHANGED` see the same in both, unless the generic
`set` is run with a credential key: it stores the plaintext, and hands it to
the audit sink and to the reload subscribers.
-/

inductive Sink where
  | store (call : Nat) (key : String) (value : Json)
  | audit (call : Nat) (entry : AuditRecord)
  | reload (call : Nat) (subscription : Subscription) (context : ReloadContext)
  | event (call : Nat) (payload : Payload)

def Effect.sink : Effect -> Option Sink
  | stored call _ key value => some (.store call key value)
  | audited call entry => some (.audit call entry)
  | reloaded call subscription context => some (.reload call subscription context)
  | changed call payload => some (.event call payload)
  | _ => none

/-- Everything that left the service for anything but the vault. -/
def seen (config : Config) (start : Start) (inputs : List Input) : List Sink :=
  (trace config start inputs).filterMap Effect.sink

/-- The same operation, with another plaintext for the same credential. -/
inductive Operation.Alike : Operation -> Operation -> Prop where
  | same (operation : Operation) : Alike operation operation
  | set {key : String} (credential : isCredentialKey key = true) (one other : Json)
      (summary auditKey kind : Option String) :
      Alike (.set key one summary auditKey kind) (.set key other summary auditKey kind)
  | append {key : String} (credential : isCredentialKey key = true) (one other : Json)
      (summary : Option String) : Alike (.append key one summary) (.append key other summary)
  | updateItem {key : String} (credential : isCredentialKey key = true) (matchField : String)
      (one other patch change : Json) (summary : Option String) :
      Alike (.updateItem key matchField one patch summary)
        (.updateItem key matchField other change summary)
  | deleteItem {key : String} (credential : isCredentialKey key = true) (matchField : String)
      (one other : Json) : Alike (.deleteItem key matchField one) (.deleteItem key matchField other)
  | setCredential (key one other description : String) (summary : Option String) :
      Alike (.setCredential key one description summary)
        (.setCredential key other description summary)
  | storeVaultCredential (vaultId one other : String) (metadata : Option Json)
      (auditKey summary : Option String) :
      Alike (.storeVaultCredential vaultId one metadata auditKey summary)
        (.storeVaultCredential vaultId other metadata auditKey summary)

structure Request.Alike (one other : Request) : Prop where
  operation : one.operation.Alike other.operation
  actor : one.actor = other.actor

inductive Input.Alike : Input -> Input -> Prop where
  | call (id : Nat) {one other : Request} (alike : one.Alike other) (underCap : Bool) (hex : String)
      (draws : List String) :
      Alike (.call id one underCap hex draws) (.call id other underCap hex draws)
  | resolve (id : Nat) (approvalId : String) (draws : List String) :
      Alike (.resolve id approvalId draws) (.resolve id approvalId draws)
  | resume (id : Nat) (event : Event) : Alike (.resume id event) (.resume id event)

/-- A `set` of a credential key to a value that would pass as a credential. -/
def Request.storesPlaintext (request : Request) : Bool :=
  match request.operation with
  | .set key (.str text) _ _ _ => isCredentialKey key && !text.isEmpty
  | _ => false

/-- The step runs no `set` that stores a plaintext, be it a direct call that
passes the gate or an approved one. -/
def NoPlaintextSet (config : Config) (state : State) : Input -> Prop
  | .call _ request underCap _ _ =>
    request.decide config underCap = .run -> request.storesPlaintext = false
  | .resolve _ approvalId _ => ∀ entry, state.entries approvalId = some entry ->
      entry.run.storesPlaintext = false
  | .resume _ _ => True

namespace Operation.Alike

variable {one other : Operation}

theorem key (alike : one.Alike other) : one.key = other.key := by
  cases alike <;> rfl

theorem name (alike : one.Alike other) : one.name = other.name := by
  cases alike <;> rfl

theorem purpose (alike : one.Alike other) : one.purpose = other.purpose := by
  cases alike <;> rfl

theorem onStore (alike : one.Alike other) : one.onStore = other.onStore := by
  cases alike <;> rfl

theorem auditKind (alike : one.Alike other) : one.auditKind = other.auditKind := by
  cases alike <;> rfl

theorem auditKey (alike : one.Alike other) : one.auditKey = other.auditKey := by
  cases alike <;> rfl

theorem auditSummary (alike : one.Alike other) : one.auditSummary = other.auditSummary := by
  cases alike <;> rfl

theorem restartRequired (alike : one.Alike other) :
    one.restartRequired = other.restartRequired := by
  cases alike <;> rfl

end Operation.Alike

namespace Request.Alike

variable {one other : Request}

theorem key (alike : one.Alike other) : one.key = other.key :=
  alike.operation.key

theorem decide (alike : one.Alike other) (config : Config) (underCap : Bool) :
    one.decide config underCap = other.decide config underCap := by
  rcases one with ⟨operation, actor⟩
  rcases other with ⟨second, name⟩
  rcases alike with ⟨alike, same⟩
  dsimp only at alike same
  subst same
  cases alike <;> rfl

theorem stop (alike : one.Alike other) (approval : Option String) (stopped : Stopped) :
    Settings.stop one approval stopped = Settings.stop other approval stopped := by
  unfold Settings.stop
  rw [alike.operation.name, alike.key]

theorem pendingResult (alike : one.Alike other) (approvalId : String) :
    Settings.pendingResult one approvalId = Settings.pendingResult other approvalId := by
  unfold Settings.pendingResult
  rw [alike.operation.name, alike.key]

theorem auditRecord (alike : one.Alike other) (old new : Json) :
    Settings.auditRecord one old new = Settings.auditRecord other old new := by
  unfold Settings.auditRecord
  rw [alike.operation.auditKind, alike.operation.auditKey, alike.operation.auditSummary, alike.actor]

theorem succeeded (alike : one.Alike other) (auditId : Option Int) (tasks : List ReloadTask) :
    Settings.succeeded one auditId tasks = Settings.succeeded other auditId tasks := by
  unfold Settings.succeeded
  rw [alike.operation.name, alike.key, alike.operation.restartRequired]

theorem buildEventPayload (alike : one.Alike other) (config : Config) (old new : Json)
    (auditId : Option Int) : Settings.buildEventPayload config one old new auditId =
      Settings.buildEventPayload config other old new auditId := by
  unfold Settings.buildEventPayload
  rw [alike.operation.name, alike.key, alike.actor]

end Request.Alike

variable {config : Config} {key : String}

theorem validated_list (credential : isCredentialKey key = true)
    (draws : List String) (items : List Json) :
    ∃ stopped, validated config key draws (.arr items) = .error stopped := by
  refine ⟨.refused (.validation "credential value must be non-empty string"), ?_⟩
  unfold validated validateValue
  rw [if_pos credential, validateCredential_list]
  rfl

theorem appendedValue_credential (config : Config)
    (credential : isCredentialKey key = true) (draws : List String) (item stored : Json) :
    ∃ stopped, appendedValue config key draws item stored = .error stopped := by
  unfold appendedValue
  cases heldList key stored with
  | error stopped => exact ⟨stopped, rfl⟩
  | ok old => exact validated_list credential draws _

theorem updatedValue_credential (config : Config)
    (credential : isCredentialKey key = true) (draws : List String) (matchField : String)
    (matchValue patch stored : Json) : ∃ stopped,
      updatedValue config key draws matchField matchValue patch stored = .error stopped := by
  unfold updatedValue
  cases heldList key stored with
  | error stopped => exact ⟨stopped, rfl⟩
  | ok old =>
    dsimp only [bind, Except.bind]
    split
    · exact ⟨_, rfl⟩
    · rename_i index found
      cases (old.mapM Json.toDict).mapError Stopped.raised with
      | error stopped => exact ⟨stopped, rfl⟩
      | ok copies =>
        dsimp only
        cases patchItem (copies.getD index .null) patch with
        | error stopped => exact ⟨stopped, rfl⟩
        | ok patched => exact validated_list credential draws _

theorem deletedValue_credential (config : Config)
    (credential : isCredentialKey key = true) (draws : List String) (matchField : String)
    (matchValue stored : Json) : ∃ stopped,
      deletedValue config key draws matchField matchValue stored = .error stopped := by
  unfold deletedValue
  cases heldList key stored with
  | error stopped => exact ⟨stopped, rfl⟩
  | ok old =>
    dsimp only [bind, Except.bind]
    split
    · exact ⟨_, rfl⟩
    · exact validated_list credential draws _

theorem validated_refused (credential : isCredentialKey key = true)
    (draws : List String) {value : Json} {summary auditKey kind : Option String} {actor : String}
    (harmless : Request.storesPlaintext ⟨.set key value summary auditKey kind, actor⟩ = false) :
    validated config key draws value =
      .error (.refused (.validation "credential value must be non-empty string")) := by
  unfold validated validateValue
  rw [if_pos credential]
  cases value with
  | str text =>
    unfold Request.storesPlaintext at harmless
    dsimp only at harmless
    rw [credential, Bool.true_and, Bool.not_eq_false'] at harmless
    have empty : text = "" := String.isEmpty_iff.mp harmless
    rw [empty]
    rfl
  | _ => rfl

/-! ## States of the two runs -/

def Stage.Alike (one other : Stage) : Prop :=
  one = other ∨ (one.ended = true ∧ other.ended = true)

structure Call.Alike (one other : Call) : Prop where
  request : one.request.Alike other.request
  approval : one.approval = other.approval
  stage : one.stage.Alike other.stage

structure PendingEntry.Alike (one other : PendingEntry) : Prop where
  run : one.run.Alike other.run

structure State.Alike (one other : State) : Prop where
  stored : one.stored = other.stored
  copies : one.copies = other.copies
  lockedBy : one.lockedBy = other.lockedBy
  vault : ∀ vaultId, (one.vault vaultId).isSome = (other.vault vaultId).isSome
  entries : ∀ approvalId,
    Option.Rel PendingEntry.Alike (one.entries approvalId) (other.entries approvalId)
  calls : ∀ id, Option.Rel Call.Alike (one.calls id) (other.calls id)

structure Change.Alike (one other : Change) : Prop where
  stage : one.stage.Alike other.stage
  stored : one.stored = other.stored
  copy : one.copy = other.copy
  credential : Option.Rel (fun first second => first.isSome = second.isSome)
    one.credential other.credential
  sinks : one.effects.filterMap Effect.sink = other.effects.filterMap Effect.sink

theorem Stage.Alike.holdsLock {one other : Stage} (alike : one.Alike other) :
    one.holdsLock = other.holdsLock := by
  rcases alike with same | ⟨first, second⟩
  · rw [same]
  · rw [ended_unlocked first, ended_unlocked second]

variable {one other : Request}

/-- Alike requests begin alike, unless they are about to store their plaintexts. -/
theorem begin_alike (config : Config) (alike : one.Alike other)
    (approval : Option String) (draws : List String)
    (harmless : one.storesPlaintext = false) (likewise : other.storesPlaintext = false) :
    (begin config one approval draws).Alike (begin config other approval draws) := by
  rcases one with ⟨operation, actor⟩
  rcases other with ⟨second, name⟩
  rcases alike with ⟨alike, same⟩
  dsimp only at alike same
  subst same
  cases alike with
  | same => exact .inl rfl
  | set credential first second summary auditKey kind =>
    left
    unfold begin
    dsimp only
    rw [validated_refused credential draws harmless, validated_refused credential draws likewise]
    rfl
  | append | updateItem | deleteItem | setCredential | storeVaultCredential => exact .inl rfl

theorem afterRead_stops {request : Request} {approval : Option String}
    {draws : List String} {prepared stored : Json} {stopped : Stopped}
    (list : ∀ key value summary auditKey kind,
      request.operation ≠ .set key value summary auditKey kind)
    (stops : request.operation.applied config draws stored = .error stopped) :
    (afterRead config request approval draws prepared stored).ended = true := by
  unfold afterRead
  dsimp only
  split
  case h_1 new computed =>
    split at computed
    case h_1 key value summary auditKey kind same =>
      exact absurd same (list key value summary auditKey kind)
    case h_2 =>
      rw [stops] at computed
      cases computed
  case h_2 other _ => exact stop_ended request approval other

theorem afterRead_alike (alike : one.Alike other)
    (approval : Option String) (draws : List String) (prepared stored : Json) :
    (afterRead config one approval draws prepared stored).Alike
      (afterRead config other approval draws prepared stored) := by
  rcases one with ⟨operation, actor⟩
  rcases other with ⟨second, name⟩
  rcases alike with ⟨alike, same⟩
  dsimp only at alike same
  subst same
  cases alike with
  | same | set | setCredential | storeVaultCredential => exact .inl rfl
  | append credential first second summary =>
    rcases appendedValue_credential config credential draws first stored with ⟨_, one⟩
    rcases appendedValue_credential config credential draws second stored with ⟨_, two⟩
    exact .inr ⟨afterRead_stops (by intros; nofun) one, afterRead_stops (by intros; nofun) two⟩
  | updateItem credential matchField first second patch change summary =>
    rcases updatedValue_credential config credential draws matchField first patch stored
      with ⟨_, one⟩
    rcases updatedValue_credential config credential draws matchField second change
      stored with ⟨_, two⟩
    exact .inr ⟨afterRead_stops (by intros; nofun) one, afterRead_stops (by intros; nofun) two⟩
  | deleteItem credential matchField first second =>
    rcases deletedValue_credential config credential draws matchField first stored
      with ⟨_, one⟩
    rcases deletedValue_credential config credential draws matchField second stored
      with ⟨_, two⟩
    exact .inr ⟨afterRead_stops (by intros; nofun) one, afterRead_stops (by intros; nofun) two⟩

/-! ## One step in both runs -/

variable {state : State}

theorem resume_ended {call : Nat} {running : Call} {event : Event}
    (ended : running.stage.ended = true) : resume config state call running event = none := by
  rcases running with ⟨request, approval, stage⟩
  cases stage with
  | returned result => cases event <;> rfl
  | raised error => cases event <;> rfl
  | acquiring | locked | writing | auditing | reloading | emitting => cases ended

section Resume

variable {config : Config} {state beside : State} {call : Nat} {one other : Request}

theorem vaultCall_alike (states : state.Alike beside) (alike : one.Alike other)
    (approval : Option String) (failure : Option PyError) :
    Option.Rel Change.Alike (vaultCall state call one approval failure)
      (vaultCall beside call other approval failure) := by
  rcases one with ⟨operation, actor⟩
  rcases other with ⟨second, name⟩
  rcases alike with ⟨alike, same⟩
  dsimp only at alike same
  subst same
  cases alike with
  | set | append | updateItem | deleteItem => exact .none
  | setCredential | storeVaultCredential =>
    cases failure with
    | some error => exact .some ⟨.inl rfl, rfl, rfl, .none, rfl⟩
    | none => exact .some ⟨.inl rfl, rfl, rfl, .some rfl, rfl⟩
  | same =>
    cases operation with
    | set | append | updateItem | deleteItem => exact .none
    | setCredential | storeVaultCredential =>
      cases failure with
      | some error => exact .some ⟨.inl rfl, rfl, rfl, .none, rfl⟩
      | none => exact .some ⟨.inl rfl, rfl, rfl, .some rfl, rfl⟩
    | deleteVaultCredential vaultId auditKey summary =>
      cases failure with
      | some error => exact .some ⟨.inl rfl, rfl, rfl, .none, rfl⟩
      | none =>
        unfold vaultCall
        dsimp only
        rw [states.vault vaultId]
        split
        · exact .some ⟨.inl rfl, rfl, rfl, .some rfl, rfl⟩
        · exact .some ⟨.inl rfl, rfl, rfl, .none, rfl⟩
    | deleteCredential =>
      cases failure with
      | some error => exact .some ⟨.inl rfl, rfl, rfl, .none, rfl⟩
      | none => exact .some ⟨.inl rfl, rfl, rfl, .some rfl, rfl⟩

theorem change_alike {first second : Stage} {effects more : List Effect}
    (stage : first.Alike second)
    (sinks : effects.filterMap Effect.sink = more.filterMap Effect.sink) :
    Option.Rel Change.Alike (some { stage := first, effects }) (some { stage := second, effects := more }) :=
  .some ⟨stage, rfl, rfl, .none, sinks⟩

theorem resume_alike (states : state.Alike beside) (alike : one.Alike other)
    (approval : Option String) (stage : Stage) (event : Event) :
    Option.Rel Change.Alike (resume config state call ⟨one, approval, stage⟩ event)
      (resume config beside call ⟨other, approval, stage⟩ event) := by
  have stops : ∀ stopped, Stage.Alike (stop one approval stopped) (stop other approval stopped) :=
    fun stopped => .inl (alike.stop approval stopped)
  have stored : state.stored one.key = beside.stored other.key := by
    rw [states.stored, alike.key]
  cases stage with
  | acquiring prepared =>
    cases event with
    | acquired =>
      unfold resume
      dsimp only
      rw [states.lockedBy, alike.key]
      split
      · exact change_alike (.inl rfl) rfl
      · exact .none
    | cancelled => exact change_alike (.inl rfl) rfl
    | _ => exact .none
  | locked prepared =>
    cases event with
    | read failure draws =>
      unfold resume
      dsimp only
      rw [alike.operation.onStore, stored]
      split
      · cases failure with
        | some error => exact change_alike (stops _) rfl
        | none => exact change_alike (afterRead_alike alike approval draws prepared _) rfl
      · exact .none
    | vault failure => exact vaultCall_alike states alike approval failure
    | cancelled => exact change_alike (.inl rfl) rfl
    | _ => exact .none
  | writing old new =>
    have sinks : [Effect.stored call one one.key new].filterMap Effect.sink =
        [Effect.stored call other other.key new].filterMap Effect.sink := by
      rw [alike.key]
      rfl
    cases event with
    | wrote outcome =>
      cases outcome with
      | done => exact .some ⟨.inl rfl, rfl, rfl, .none, sinks⟩
      | failed error => exact change_alike (stops _) rfl
      | failedLate error => exact .some ⟨stops (.raised error), rfl, rfl, .none, sinks⟩
    | cancelled => exact change_alike (.inl rfl) rfl
    | _ => exact .none
  | auditing old new =>
    have sinks : [Effect.audited call (auditRecord one old new)].filterMap Effect.sink =
        [Effect.audited call (auditRecord other old new)].filterMap Effect.sink := by
      rw [alike.auditRecord]
    cases event with
    | audited outcome =>
      cases outcome with
      | ok auditId =>
        unfold resume
        dsimp only
        rw [alike.key]
        exact change_alike (.inl rfl) sinks
      | error error => exact change_alike (stops _) sinks
    | cancelled => exact change_alike (.inl rfl) rfl
    | _ => exact .none
  | reloading old new auditId tasks =>
    cases event with
    | reloaded index failure =>
      unfold resume
      dsimp only
      split
      · rw [alike.key, alike.operation.name]
        exact .some ⟨.inl rfl, rfl, rfl, .none, rfl⟩
      · exact .none
    | gathered =>
      unfold resume
      dsimp only
      split
      · rw [alike.buildEventPayload, alike.succeeded]
        exact change_alike (.inl rfl) rfl
      · exact .none
    | cancelled => exact change_alike (.inl rfl) rfl
    | _ => exact .none
  | emitting payload result =>
    cases event with
    | emitted => exact change_alike (.inl rfl) rfl
    | cancelled => exact change_alike (.inl rfl) rfl
    | _ => exact .none
  | returned result | raised error =>
    rw [resume_ended rfl, resume_ended rfl]
    exact .none

end Resume

namespace State.Alike

variable {state beside : State}

theorem update {Index Value Other : Type} [DecidableEq Index] (relation : Value -> Other -> Prop)
    {first : Index -> Value} {second : Index -> Other} (index : Index) {value : Value} {other : Other}
    (here : relation value other) (elsewhere : ∀ place, relation (first place) (second place))
    (place : Index) :
    relation (Function.update first index value place) (Function.update second index other place) := by
  by_cases same : place = index
  · subst same
    rw [Function.update_self, Function.update_self]
    exact here
  · rw [Function.update_of_ne same, Function.update_of_ne same]
    exact elsewhere place

theorem place (states : state.Alike beside) (id : Nat) {one other : Call} (calls : one.Alike other) :
    (state.place id one).Alike (beside.place id other) where
  stored := states.stored
  copies := states.copies
  lockedBy := states.lockedBy
  vault := states.vault
  entries := states.entries
  calls := update _ id (.some calls) states.calls

theorem withEntries (states : state.Alike beside) {first second : String -> Option PendingEntry}
    (entries : ∀ approvalId, Option.Rel PendingEntry.Alike (first approvalId) (second approvalId)) :
    State.Alike { state with entries := first } { beside with entries := second } where
  stored := states.stored
  copies := states.copies
  lockedBy := states.lockedBy
  vault := states.vault
  entries := entries
  calls := states.calls

theorem apply (states : state.Alike beside) (id : Nat) {one other : Call} (calls : one.Alike other)
    {first second : Change} (changes : first.Alike second) :
    (state.apply id one first).Alike (beside.apply id other second) where
  stored := by
    unfold State.apply
    dsimp only
    rw [states.stored, changes.stored, calls.request.key]
  copies := by
    unfold State.apply
    dsimp only
    rw [states.copies, changes.copy]
  lockedBy := by
    unfold State.apply
    dsimp only
    rw [states.lockedBy, changes.stage.holdsLock, calls.stage.holdsLock, calls.request.key]
  vault := by
    unfold State.apply
    dsimp only
    rw [calls.request.key]
    have credential := changes.credential
    generalize first.credential = inOne at credential
    generalize second.credential = inOther at credential
    cases credential with
    | none => exact states.vault
    | some same =>
      exact update (fun (one other : Option (String × Option Json)) => one.isSome = other.isSome)
        _ same states.vault
  entries := states.entries
  calls := update _ id (.some ⟨calls.request, calls.approval, changes.stage⟩) states.calls

end State.Alike

variable {beside : State}

theorem submit_alike (states : state.Alike beside) (id : Nat)
    (requests : one.Alike other) (hex : String) :
    (submit state id one hex).1.Alike (submit beside id other hex).1 := by
  have calls : Call.Alike
      ⟨one, none, .returned (pendingResult one ("approve-" ++ hex))⟩
      ⟨other, none, .returned (pendingResult other ("approve-" ++ hex))⟩ :=
    ⟨requests, rfl, .inl (congrArg Stage.returned (requests.pendingResult _))⟩
  exact (states.place id calls).withEntries
    (State.Alike.update _ _ (.some ⟨requests⟩) states.entries)

theorem callStep_alike (states : state.Alike beside)
    (id : Nat) (requests : one.Alike other) (underCap : Bool) (hex : String) (draws : List String)
    (guarded : one.decide config underCap = .run -> one.storesPlaintext = false)
    (likewise : other.decide config underCap = .run -> other.storesPlaintext = false) :
    (callStep config state id one underCap hex draws).1.Alike
        (callStep config beside id other underCap hex draws).1 ∧
      (callStep config state id one underCap hex draws).2.filterMap Effect.sink =
        (callStep config beside id other underCap hex draws).2.filterMap Effect.sink := by
  unfold callStep
  rw [requests.decide config underCap] at guarded ⊢
  split
  case h_1 result _ => exact ⟨states.place id ⟨requests, rfl, .inl rfl⟩, rfl⟩
  case h_2 => exact ⟨submit_alike states id requests hex, rfl⟩
  case h_3 runs =>
    have begins := begin_alike config requests none draws (guarded runs) (likewise runs)
    exact ⟨states.place id ⟨requests, rfl, begins⟩, rfl⟩

theorem resolveStep_alike (states : state.Alike beside)
    (id : Nat) (approvalId : String) (draws : List String)
    (guarded : ∀ entry, state.entries approvalId = some entry -> entry.run.storesPlaintext = false)
    (likewise : ∀ entry, beside.entries approvalId = some entry ->
      entry.run.storesPlaintext = false) : (resolveStep config state id approvalId draws).1.Alike
        (resolveStep config beside id approvalId draws).1 ∧
      (resolveStep config state id approvalId draws).2.filterMap Effect.sink =
        (resolveStep config beside id approvalId draws).2.filterMap Effect.sink := by
  unfold resolveStep
  split
  case isTrue =>
    have entries := states.entries approvalId
    cases found : state.entries approvalId with
    | none =>
      rw [found] at entries
      cases foundToo : beside.entries approvalId with
      | none => exact ⟨states, rfl⟩
      | some second =>
        rw [foundToo] at entries
        cases entries
    | some entry =>
      rw [found] at entries
      cases foundToo : beside.entries approvalId with
      | none =>
        rw [foundToo] at entries
        cases entries
      | some second =>
        rw [foundToo] at entries
        cases entries with
        | some alike =>
          have begins := begin_alike config alike.run (some approvalId) draws
            (guarded entry found) (likewise second foundToo)
          have calls : Call.Alike
              ⟨entry.run, some approvalId, begin config entry.run (some approvalId) draws⟩
              ⟨second.run, some approvalId, begin config second.run (some approvalId) draws⟩ :=
            ⟨alike.run, rfl, begins⟩
          exact ⟨(states.place id calls).withEntries
            (State.Alike.update _ _ .none states.entries), rfl⟩
  case isFalse => exact ⟨states, rfl⟩

theorem resumeStep_alike (states : state.Alike beside)
    (id : Nat) {running second : Call} (alike : running.Alike second) (event : Event) :
    (resumeStep config state id running event).1.Alike
        (resumeStep config beside id second event).1 ∧
      (resumeStep config state id running event).2.filterMap Effect.sink =
        (resumeStep config beside id second event).2.filterMap Effect.sink := by
  unfold resumeStep
  rcases alike.stage with same | ⟨ended, endedToo⟩
  · have changes : Option.Rel Change.Alike (resume config state id running event)
        (resume config beside id second event) := by
      rcases running with ⟨request, approval, stage⟩
      rcases second with ⟨requestToo, approvalToo, stageToo⟩
      have requests := alike.request
      have approvals := alike.approval
      dsimp only at same requests approvals
      subst same approvals
      exact resume_alike states requests approval stage event
    generalize resume config state id running event = resumed at changes
    generalize resume config beside id second event = resumedToo at changes
    cases changes with
    | none => exact ⟨states, rfl⟩
    | some change => exact ⟨states.apply id alike change, change.sinks⟩
  · rw [resume_ended ended, resume_ended endedToo]
    exact ⟨states, rfl⟩

theorem step_alike {input other : Input} (states : state.Alike beside) (inputs : input.Alike other)
    (guarded : NoPlaintextSet config state input) (likewise : NoPlaintextSet config beside other) :
    (step config state input).1.Alike (step config beside other).1 ∧
      (step config state input).2.filterMap Effect.sink =
        (step config beside other).2.filterMap Effect.sink := by
  cases inputs with
  | call id requests underCap hex draws =>
    have calls := states.calls id
    unfold step
    dsimp only
    generalize state.calls id = known at calls
    generalize beside.calls id = besideKnown at calls
    cases calls with
    | some => exact ⟨states, rfl⟩
    | none => exact callStep_alike states id requests underCap hex draws guarded likewise
  | resolve id approvalId draws =>
    have calls := states.calls id
    unfold step
    dsimp only
    generalize state.calls id = known at calls
    generalize beside.calls id = besideKnown at calls
    cases calls with
    | some => exact ⟨states, rfl⟩
    | none => exact resolveStep_alike states id approvalId draws guarded likewise
  | resume id event =>
    have calls := states.calls id
    unfold step
    dsimp only
    generalize state.calls id = known at calls
    generalize beside.calls id = besideKnown at calls
    cases calls with
    | some alike => exact resumeStep_alike states id alike event
    | none => exact ⟨states, rfl⟩

/-- In two runs that differ in plaintexts only, neither of which runs a generic `set`
of a credential key to a plaintext, the four sinks see the same. -/
theorem plaintext_unseen_run (config : Config) (start : Start) {inputs others : List Input}
    (alike : List.Forall₂ Input.Alike inputs others)
    (guarded : (service config start).EveryStep (NoPlaintextSet config) inputs)
    (likewise : (service config start).EveryStep (NoPlaintextSet config) others) :
    seen config start inputs = seen config start others := by
  refine ((service config start).alike_run (service config start) State.Alike ?_ ?_ alike guarded
    likewise).2
  · exact ⟨rfl, rfl, rfl, fun _ => rfl, fun _ => .none, fun _ => .none⟩
  · intro state beside input other states inputs guarded likewise
    exact step_alike states inputs guarded likewise

/-- The language model reloads its keys on every change below `apikey:`. -/
def reloadingConfig : Config where
  validators := fun _ _ _ => .error (.validation "unknown key")
  subscriptions := [.other "apikey:*" 0]
  eventBus := true
  approvals := true
  rateLimiter := true

def noRows : Start where
  stored := fun _ => .null
  vault := fun _ => none
  copies := fun _ => .null

variable (secret : String)

def rotateKey : Request where
  operation := .setCredential "apikey:OPENAI_API_KEY" secret "" none
  actor := "user:alice"

def callRun (request : Request) (events : List Event) : List Input :=
  .call 0 request true "" [] :: events.map (.resume 0)

theorem callRun_alike (alike : one.Alike other) (events : List Event) :
    List.Forall₂ Input.Alike (callRun one events) (callRun other events) := by
  refine .cons (.call 0 alike true "" []) (List.forall₂_same.mpr ?_)
  intro input member
  rcases List.mem_map.mp member with ⟨event, _, same⟩
  rw [← same]
  exact .resume 0 event

theorem rotateKey_alike (one other : String) : (rotateKey one).Alike (rotateKey other) where
  operation := .setCredential "apikey:OPENAI_API_KEY" one other "" none
  actor := rfl

def rotation : List Input :=
  callRun (rotateKey secret)
    [.acquired, .vault none, .audited (.ok none), .reloaded 0 none, .gathered, .emitted]

theorem rotation_guarded :
    (service reloadingConfig noRows).EveryStep (NoPlaintextSet reloadingConfig) (rotation secret) := by
  rw [Machine.everyStep_iff_stepsFrom]
  exact ⟨fun _ => rfl, trivial, trivial, trivial, trivial, trivial, trivial, trivial⟩

/-- Storing a key in the vault is seen by all sinks but the settings store,
and its value by none. -/
theorem rotation_unseen : (seen reloadingConfig noRows (rotation "sk-one")).length = 3 ∧
      seen reloadingConfig noRows (rotation "sk-one") =
        seen reloadingConfig noRows (rotation "sk-two") :=
  ⟨rfl, plaintext_unseen_run reloadingConfig noRows
    (callRun_alike (rotateKey_alike "sk-one" "sk-two") _)
    (rotation_guarded "sk-one") (rotation_guarded "sk-two")⟩

def plainKey : Request where
  operation := .set "apikey:OPENAI_API_KEY" (.str secret) none none none
  actor := "user:alice"

theorem plainKey_alike (one other : String) : (plainKey one).Alike (plainKey other) where
  operation := .set (by decide) (.str one) (.str other) none none none
  actor := rfl

def plainRun : List Input :=
  callRun (plainKey secret)
    [.acquired, .read none [], .wrote .done, .audited (.ok none), .reloaded 0 none]

/-- The generic `set` shows the plaintext to the settings store, to the audit
sink and to the reload subscribers. -/
theorem plainRun_seen : (seen reloadingConfig noRows (plainRun "sk-one") =
      [.store 0 "apikey:OPENAI_API_KEY" (.str "sk-one"),
        .audit 0 (auditRecord (plainKey "sk-one") .null (.str "sk-one")),
        .reload 0 (.other "apikey:*" 0)
          { key := "apikey:OPENAI_API_KEY", operation := "set", old := .null
            new := .str "sk-one" }]) ∧
      ¬ ∀ config start inputs others, List.Forall₂ Input.Alike inputs others ->
        seen config start inputs = seen config start others := by
  refine ⟨rfl, ?_⟩
  intro every
  have same := every reloadingConfig noRows (plainRun "sk-one") (plainRun "sk-two")
    (callRun_alike (plainKey_alike "sk-one" "sk-two") _)
  have first : (seen reloadingConfig noRows (plainRun "sk-one")).head? =
      some (.store 0 "apikey:OPENAI_API_KEY" (.str "sk-one")) := rfl
  have second : (seen reloadingConfig noRows (plainRun "sk-two")).head? =
      some (.store 0 "apikey:OPENAI_API_KEY" (.str "sk-two")) := rfl
  rw [same, second] at first
  have texts := Json.str.inj (Sink.store.inj (Option.some.inj first)).2.2
  exact absurd texts (by decide)

end Settings
end BreadMind
