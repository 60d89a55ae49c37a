import BreadMind.Settings.Service

namespace BreadMind
namespace Settings

open Execution
open Function (update)

/-!
# The write pipeline

What each operation does once it has passed the gate: the new value of a
settings key, the sequence of awaited collaborators between taking and
releasing the lock, and the answer.
-/

/-- A call stops with an answer or with an exception. -/
inductive Stopped where
  | refused (refusal : Refusal)
  | raised (error : PyError)

def Failure.stops : Failure -> Stopped
  | validation message => .refused (.validation message)
  | raised error => .raised error

variable (config : Config) (key : String) (draws : List String)

def validated (value : Json) : Except Stopped Json :=
  (validateValue config.validators key draws value).mapError Failure.stops

variable (stored : Json)

/-- `get_setting(key) or []`. -/
def orEmptyList : Json :=
  if stored.truthy then stored else .arr []

/-- The list operations refuse anything which is not a list. -/
def heldList : Except Stopped (List Json) :=
  match orEmptyList stored with
  | .arr items => .ok items
  | _ => .error (.refused (.notAList key))

variable (matchField : String) (matchValue : Json)

/-- `isinstance(it, dict) and it.get(match_field) == match_value`. -/
def itemMatches : Json -> Bool
  | .obj fields => ((fields.lookup matchField).getD .null).pyEq matchValue
  | _ => false

def setField (fields : List (String × Json)) (field : String × Json) : List (String × Json) :=
  if fields.any (fun entry => entry.1 == field.1) then
    fields.map fun entry => if entry.1 == field.1 then field else entry
  else fields ++ [field]

def patchItem (item patch : Json) : Except Stopped Json :=
  match item, patch with
  | .obj fields, .obj changes => .ok (.obj (changes.foldl setField fields))
  | _, _ => .error (.raised (.typeError "object is not a mapping"))

def appendedValue (item stored : Json) : Except Stopped Json := do
  let old <- heldList key stored
  validated config key draws (.arr (old ++ [item]))

def updatedValue (patch stored : Json) : Except Stopped Json := do
  let old <- heldList key stored
  match old.findIdx? (itemMatches matchField matchValue) with
  | none => .error (.refused (.noMatchingItem matchField matchValue))
  | some index =>
    let copies <- (old.mapM Json.toDict).mapError Stopped.raised
    let patched <- patchItem (copies.getD index .null) patch
    validated config key draws (.arr (copies.set index patched))

def deletedValue (stored : Json) : Except Stopped Json := do
  let old <- heldList key stored
  let kept := old.filter fun item => !itemMatches matchField matchValue item
  if kept.length = old.length then .error (.refused (.noMatchingItem matchField matchValue))
  else validated config key draws (.arr kept)

/-- What an operation on the settings store makes of the stored value. -/
def Operation.applied : Operation -> Except Stopped Json
  | set key value .. => validated config key draws value
  | append key item _ => appendedValue config key draws item stored
  | updateItem key matchField matchValue patch _ =>
    updatedValue config key draws matchField matchValue patch stored
  | deleteItem key matchField matchValue =>
    deletedValue config key draws matchField matchValue stored
  | _ => .ok stored

variable (request : Request) (approval : Option String)

/-- A call that cannot go on.  `resolve_approval` takes any `KeyError` of the
approved run for an unknown identifier. -/
def stop : Stopped -> Stage
  | .refused refusal => .returned (.refused request.operation.name request.key refusal)
  | .raised error =>
    match approval, error with
    | some approvalId, .keyError _ =>
      .returned (.refused "resolve_approval" "" (.unknownApproval approvalId))
    | _, _ => .raised error

/-- `_…_internal` up to its lock: only `set` validates before it. -/
def begin (draws : List String) : Stage :=
  match request.operation with
  | .set key value .. =>
    match validated config key draws value with
    | .ok prepared => .acquiring prepared
    | .error stopped => stop request approval stopped
  | _ => .acquiring .null

/-- The preview of the old value: the list operations read `[]` for nothing. -/
def oldPreview (stored : Json) : Json :=
  match request.operation with
  | .set .. => stored
  | _ => orEmptyList stored

/-- From `get_setting` to `set_setting`. -/
def afterRead (draws : List String) (prepared stored : Json) : Stage :=
  let computed : Except Stopped Json :=
    match request.operation with
    | .set .. => .ok prepared
    | operation => operation.applied config draws stored
  match computed with
  | .ok new => .writing (oldPreview request stored) new
  | .error stopped => stop request approval stopped

/-! ## The collaborators -/

inductive WriteOutcome where
  | done
  | failed (error : PyError)
  | failedLate (error : PyError)

/-- What a waiting call is woken by.  A write may raise before or after it has
taken effect, and any call may be cancelled while it waits. -/
inductive Event where
  | acquired
  | read (failure : Option PyError) (draws : List String)
  | wrote (outcome : WriteOutcome)
  | vault (failure : Option PyError)
  | audited (outcome : Except PyError (Option Int))
  | reloaded (index : Nat) (failure : Option PyError)
  | gathered
  | emitted
  | cancelled

/-- What one step changes besides the lock. -/
structure Change where
  stage : Stage
  stored : Option Json := none
  credential : Option (Option (String × Option Json)) := none
  copy : Option (String × Json) := none
  effects : List Effect := []

/-- `metadata or None`, with the description when there is one. -/
def credentialMetadata (description : String) : Option Json :=
  if description = "" then none else some (.obj [("description", .str description)])

variable (state : State)

/-- The vault call of a credential operation.  The two operations on raw vault
identifiers answer with the exception of the vault, the other two let it pass. -/
def vaultCall (call : Nat) (request : Request) (approval : Option String)
    (failure : Option PyError) : Option Change :=
  match request.operation with
  | .setCredential key value description _ =>
    let metadata := credentialMetadata description
    let effects := [Effect.vaultStored call request key value metadata]
    match failure with
    | some error => some { stage := stop request approval (.raised error), effects }
    | none => some
        { stage := .auditing .null .null, credential := some (some (value, metadata)), effects }
  | .storeVaultCredential vaultId value metadata _ _ =>
    let effects := [Effect.vaultStored call request vaultId value metadata]
    match failure with
    | some error => some { stage := stop request approval (.refused (.vault error)), effects }
    | none => some
        { stage := .auditing .null .null, credential := some (some (value, metadata)), effects }
  | .deleteVaultCredential vaultId _ _ =>
    let effects := [Effect.vaultDeleted call request vaultId]
    match failure with
    | some error => some { stage := stop request approval (.refused (.vault error)), effects }
    | none =>
      if (state.vault vaultId).isSome then
        some { stage := .auditing .null .null, credential := some none, effects }
      else some { stage := stop request approval (.refused .credentialNotFound), effects }
  | .deleteCredential key =>
    let effects := [Effect.vaultDeleted call request key]
    match failure with
    | some error => some { stage := stop request approval (.raised error), effects }
    | none => some { stage := .auditing .null .null, credential := some none, effects }
  | _ => none

def auditRecord (old new : Json) : AuditRecord where
  kind := request.operation.auditKind
  key := request.operation.auditKey
  actor := request.actor
  oldPreview := old
  newPreview := new
  summary := request.operation.auditSummary

/-- `dispatch`: the subscribers whose pattern matches, none of which has run. -/
def dispatched (config : Config) (key : String) : List ReloadTask :=
  (config.subscriptions.filter fun subscription => subscription.reloads key).map
    fun subscription => { subscription, ended := none }

/-- The runtime configuration takes over the new value. -/
def Subscription.copy (new : Json) : Subscription -> Option (String × Json)
  | runtimeConfig key => some (key, new)
  | other .. => none

def reloadErrors (tasks : List ReloadTask) : List (String × PyError) :=
  tasks.filterMap fun task =>
    match task.ended with
    | some (some error) => some (task.subscription.pattern, error)
    | _ => none

/-- `_build_event_payload`: the values of a credential key are masked. -/
def buildEventPayload (old new : Json) (auditId : Option Int) : Option Payload :=
  if config.eventBus then
    let masked := isCredentialKey request.key
    some
      { key := request.key
        operation := request.operation.name
        old := if masked then .null else old
        new := if masked then .null else new
        actor := request.actor
        auditId }
  else none

def succeeded (auditId : Option Int) (tasks : List ReloadTask) : SetResult where
  ok := true
  operation := request.operation.name
  key := request.key
  persisted := true
  hotReloaded := (reloadErrors tasks).isEmpty
  restartRequired := request.operation.restartRequired
  reloadErrors := reloadErrors tasks
  auditId := auditId

def cancelledError : PyError := .raised "CancelledError" ""

/-- The next step of a call that was woken, when it waits for that. -/
def resume (call : Nat) (running : Call) (event : Event) : Option Change :=
  let request := running.request
  match running.stage, event with
  | .acquiring prepared, .acquired =>
    if state.lockedBy request.key = none then some { stage := .locked prepared } else none
  | .locked prepared, .read failure draws =>
    if request.operation.onStore then
      match failure with
      | some error => some { stage := stop request running.approval (.raised error) }
      | none => some
          { stage := afterRead config request running.approval draws prepared
              (state.stored request.key) }
    else none
  | .locked _, .vault failure => vaultCall state call request running.approval failure
  | .writing old new, .wrote .done => some
      { stage := .auditing old new, stored := some new
        effects := [.stored call request request.key new] }
  | .writing _ _, .wrote (.failed error) => some
      { stage := stop request running.approval (.raised error) }
  | .writing _ new, .wrote (.failedLate error) => some
      { stage := stop request running.approval (.raised error), stored := some new
        effects := [.stored call request request.key new] }
  | .auditing old new, .audited (.ok auditId) => some
      { stage := .reloading old new auditId (dispatched config request.key)
        effects := [.audited call (auditRecord request old new)] }
  | .auditing old new, .audited (.error error) => some
      { stage := stop request running.approval (.raised error)
        effects := [.audited call (auditRecord request old new)] }
  | .reloading old new auditId tasks, .reloaded index failure =>
    match tasks[index]? with
    | some { subscription, ended := none } => some
        { stage := .reloading old new auditId
            (tasks.set index { subscription, ended := some failure })
          copy := subscription.copy new
          effects := [.reloaded call subscription
            { key := request.key, operation := request.operation.name, old, new }] }
    | _ => none
  | .reloading old new auditId tasks, .gathered =>
    if tasks.all (fun task => task.ended.isSome) then
      some
        { stage := .emitting (buildEventPayload config request old new auditId)
            (succeeded request auditId tasks) }
    else none
  | .emitting payload result, .emitted => some
      { stage := .returned result
        effects := payload.toList.map (Effect.changed call) }
  | stage, .cancelled => if stage.ended then none else some { stage := .raised cancelledError }
  | _, _ => none

namespace State

def apply (state : State) (call : Nat) (running : Call) (change : Change) : State :=
  let key := running.request.key
  { state with
    calls := update state.calls call (some { running with stage := change.stage })
    stored :=
      match change.stored with
      | some value => update state.stored key value
      | none => state.stored
    vault :=
      match change.credential with
      | some credential => update state.vault key credential
      | none => state.vault
    copies :=
      match change.copy with
      | some (copied, value) => update state.copies copied value
      | none => state.copies
    lockedBy :=
      if change.stage.holdsLock then update state.lockedBy key (some call)
      else if running.stage.holdsLock then update state.lockedBy key none
      else state.lockedBy }

def place (state : State) (call : Nat) (running : Call) : State :=
  { state with calls := update state.calls call (some running) }

end State

inductive Input where
  | call (id : Nat) (request : Request) (underCap : Bool) (hex : String) (draws : List String)
  | resolve (id : Nat) (approvalId : String) (draws : List String)
  | resume (id : Nat) (event : Event)

def pendingResult (approvalId : String) : SetResult where
  ok := false
  operation := request.operation.name
  key := request.key
  pendingApprovalId := some approvalId

/-- `submit`: an entry under an identifier that is in use is replaced. -/
def submit (id : Nat) (request : Request) (hex : String) : State × List Effect :=
  let approvalId := "approve-" ++ hex
  let entry : PendingEntry :=
    { id := approvalId
      purpose := request.operation.purpose
      key := request.key
      actor := request.actor
      run := request
      submission := id }
  ({ state.place id ⟨request, none, .returned (pendingResult request approvalId)⟩ with
      entries := update state.entries approvalId (some entry) },
    [.pending id request approvalId])

def callStep (id : Nat) (request : Request) (underCap : Bool)
    (hex : String) (draws : List String) : State × List Effect :=
  match request.decide config underCap with
  | .answer result => (state.place id ⟨request, none, .returned result⟩, [])
  | .submit => submit state id request hex
  | .run => (state.place id ⟨request, none, begin config request none draws⟩, [])

/-- `resolve_approval`: the entry leaves the queue before its request runs. -/
def resolveStep (id : Nat) (approvalId : String) (draws : List String) : State × List Effect :=
  if config.approvals then
    match state.entries approvalId with
    | none => (state, [.answered id (.refused "resolve_approval" "" (.unknownApproval approvalId))])
    | some entry =>
      ({ state.place id
            ⟨entry.run, some approvalId, begin config entry.run (some approvalId) draws⟩ with
          entries := update state.entries approvalId none },
        [.approved id approvalId entry.submission])
  else (state, [.answered id (.refused "resolve_approval" "" .noApprovalQueue)])

def resumeStep (id : Nat) (running : Call) (event : Event) : State × List Effect :=
  match resume config state id running event with
  | none => (state, [])
  | some change => (state.apply id running change, change.effects)

def step (config : Config) (state : State) : Input -> State × List Effect
  | .call id request underCap hex draws =>
    match state.calls id with
    | some _ => (state, [])
    | none => callStep config state id request underCap hex draws
  | .resolve id approvalId draws =>
    match state.calls id with
    | some _ => (state, [])
    | none => resolveStep config state id approvalId draws
  | .resume id event =>
    match state.calls id with
    | some running => resumeStep config state id running event
    | none => (state, [])

structure Start where
  stored : String -> Json
  vault : String -> Option (String × Option Json)
  copies : String -> Json

def service (start : Start) : Machine State Input where
  initial := { stored := start.stored, vault := start.vault, copies := start.copies }
  step := fun state input => (step config state input).1

def trace (start : Start) (inputs : List Input) : List Effect :=
  (service config start).outputs (fun state input => (step config state input).2) inputs

end Settings
end BreadMind
