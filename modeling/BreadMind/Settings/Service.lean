import BreadMind.Settings.Schema
import BreadMind.Execution.Machine
import Mathlib.Logic.Function.Basic

namespace BreadMind
namespace Settings

open Execution

/-!
# The settings service

Every write goes through the same pipeline: the key is checked, the rate limit
and the approval gate are passed, and then, under a lock for the key, the value
is validated, stored, audited and handed to the reload subscribers.  After the
lock has been released the change is announced on the event bus.

A call stops at every `await`, and what happens next, together with what the
awaited collaborator answered, is the input of the next step.  Calls wait for
a lock in any order.
-/

/-! ## Requests and answers -/

/-- The write operations with what the caller passes to them. -/
inductive Operation where
  | set (key : String) (value : Json) (auditSummary auditKey auditKind : Option String)
  | append (key : String) (item : Json) (auditSummary : Option String)
  | updateItem (key matchField : String) (matchValue patch : Json) (auditSummary : Option String)
  | deleteItem (key matchField : String) (matchValue : Json)
  | setCredential (key value description : String) (auditSummary : Option String)
  | storeVaultCredential (vaultId value : String) (metadata : Option Json)
      (auditKey auditSummary : Option String)
  | deleteVaultCredential (vaultId : String) (auditKey auditSummary : Option String)
  | deleteCredential (key : String)

namespace Operation

def key : Operation -> String
  | set key .. => key
  | append key .. => key
  | updateItem key .. => key
  | deleteItem key .. => key
  | setCredential key .. => key
  | storeVaultCredential vaultId .. => vaultId
  | deleteVaultCredential vaultId .. => vaultId
  | deleteCredential key => key

def name : Operation -> String
  | set .. => "set"
  | append .. => "append"
  | updateItem .. => "update_item"
  | deleteItem .. => "delete_item"
  | setCredential .. => "credential_store"
  | storeVaultCredential .. => "credential_store"
  | deleteVaultCredential .. => "credential_delete"
  | deleteCredential .. => "credential_delete"

def purpose : Operation -> String
  | set .. => "settings_set"
  | append .. => "settings_append"
  | updateItem .. => "settings_update_item"
  | deleteItem .. => "settings_delete_item"
  | operation => operation.name

/-- The operations on the settings store; the others work on the vault. -/
def onStore : Operation -> Bool
  | set .. => true
  | append .. => true
  | updateItem .. => true
  | deleteItem .. => true
  | _ => false

def auditKind : Operation -> String
  | set _ _ _ _ kind => kind.getD "settings_write"
  | append .. => "settings_append"
  | updateItem .. => "settings_update_item"
  | deleteItem .. => "settings_delete_item"
  | operation => operation.name

def auditKey : Operation -> String
  | set key _ _ other _ => other.getD key
  | storeVaultCredential vaultId _ _ other _ => other.getD vaultId
  | deleteVaultCredential vaultId other _ => other.getD vaultId
  | operation => operation.key

def auditSummary : Operation -> Option String
  | set _ _ summary _ _ => summary
  | append _ _ summary => summary
  | updateItem _ _ _ _ summary => summary
  | setCredential _ _ _ summary => summary
  | storeVaultCredential _ _ _ _ summary => summary
  | deleteVaultCredential _ _ summary => summary
  | _ => none

/-- The operations on raw vault identifiers never ask for a restart. -/
def restartRequired : Operation -> Bool
  | storeVaultCredential .. => false
  | deleteVaultCredential .. => false
  | operation => requiresRestart operation.key

end Operation

structure Request where
  operation : Operation
  actor : String

def Request.key (request : Request) : String := request.operation.key

def isAgent (actor : String) : Bool :=
  "agent:".toList.isPrefixOf actor.toList

/-- Why a call returns without having done its work. -/
inductive Refusal where
  | notAllowed (key : String)
  | notCredential (key : String)
  | rateLimited (actor : String)
  | notAList (key : String)
  | noMatchingItem (matchField : String) (matchValue : Json)
  | validation (message : String)
  | vault (error : PyError)
  | credentialNotFound
  | noApprovalQueue
  | unknownApproval (approvalId : String)

/-- The text of the answer; `str` is Python's `str(...)` on a JSON value. -/
def Refusal.text (str : Json -> String) : Refusal -> String
  | notAllowed key => "key '" ++ key ++ "' is not allowed"
  | notCredential key => "key '" ++ key ++ "' is not a credential key"
  | rateLimited actor => "rate limit exceeded for " ++ actor
  | notAList key => "key '" ++ key ++ "' is not a list"
  | noMatchingItem matchField matchValue =>
    "no matching item for " ++ matchField ++ "=" ++ str matchValue
  | validation message => "validation failed — " ++ message
  | vault error => error.text
  | credentialNotFound => "credential not found"
  | noApprovalQueue => "approval queue not configured"
  | unknownApproval approvalId => "unknown approval id: " ++ approvalId

structure SetResult where
  ok : Bool
  operation : String
  key : String
  persisted : Bool := false
  hotReloaded : Bool := false
  restartRequired : Bool := false
  reloadErrors : List (String × PyError) := []
  auditId : Option Int := none
  pendingApprovalId : Option String := none
  error : Option Refusal := none

def SetResult.refused (operation key : String) (refusal : Refusal) : SetResult :=
  { ok := false, operation, key, error := some refusal }

/-! ## Who is told about a change -/

/-- The keys of which the runtime configuration keeps a live copy. -/
def runtimeConfigKeys : List String :=
  ["retry_config", "limits_config", "polling_config", "agent_timeouts", "system_timeouts",
    "logging_config", "memory_gc_config"]

/-- A reload subscriber: the runtime configuration under one of its keys, or
any other function under a pattern. -/
inductive Subscription where
  | runtimeConfig (key : String)
  | other (pattern : String) (subscriber : Nat)
  deriving DecidableEq

namespace Subscription

def pattern : Subscription -> String
  | runtimeConfig key => key
  | other pattern _ => pattern

/-- `_matches`: a pattern that ends in `:*` is a prefix, any other one a key. -/
def reloads (subscription : Subscription) (key : String) : Bool :=
  if ":*".toList.isSuffixOf subscription.pattern.toList then
    subscription.pattern.toList.dropLast.isPrefixOf key.toList
  else subscription.pattern == key

end Subscription

structure ReloadContext where
  key : String
  operation : String
  old : Json
  new : Json

structure AuditRecord where
  kind : String
  key : String
  actor : String
  oldPreview : Json
  newPreview : Json
  summary : Option String

structure Payload where
  key : String
  operation : String
  old : Json
  new : Json
  actor : String
  auditId : Option Int

/-- One subscriber of a dispatch, and how it ended once it has run. -/
structure ReloadTask where
  subscription : Subscription
  ended : Option (Option PyError)

/-- Where a call stands.  `prepared` is the validated value of a `set`, which
is computed before the lock is taken. -/
inductive Stage where
  | acquiring (prepared : Json)
  | locked (prepared : Json)
  | writing (old new : Json)
  | auditing (old new : Json)
  | reloading (old new : Json) (auditId : Option Int) (tasks : List ReloadTask)
  | emitting (payload : Option Payload) (result : SetResult)
  | returned (result : SetResult)
  | raised (error : PyError)

namespace Stage

/-- Between `async with self._lock(key)` and the end of its block. -/
def holdsLock : Stage -> Bool
  | locked _ => true
  | writing .. => true
  | auditing .. => true
  | reloading .. => true
  | _ => false

def ended : Stage -> Bool
  | returned _ => true
  | raised _ => true
  | _ => false

end Stage

structure Call where
  request : Request
  approval : Option String
  stage : Stage

structure PendingEntry where
  id : String
  purpose : String
  key : String
  actor : String
  run : Request
  submission : Nat

structure Config where
  validators : Validators
  subscriptions : List Subscription
  eventBus : Bool
  approvals : Bool
  rateLimiter : Bool

/-- `stored` answers `null` for a key without a row, as `get_setting` does, and
`copies` for a key of which the runtime configuration has no copy. -/
structure State where
  stored : String -> Json
  vault : String -> Option (String × Option Json)
  copies : String -> Json
  entries : String -> Option PendingEntry := fun _ => none
  lockedBy : String -> Option Nat := fun _ => none
  calls : Nat -> Option Call := fun _ => none

inductive Effect where
  | pending (call : Nat) (request : Request) (approvalId : String)
  | approved (call : Nat) (approvalId : String) (submission : Nat)
  | stored (call : Nat) (request : Request) (key : String) (value : Json)
  | vaultStored (call : Nat) (request : Request) (vaultId value : String) (metadata : Option Json)
  | vaultDeleted (call : Nat) (request : Request) (vaultId : String)
  | audited (call : Nat) (entry : AuditRecord)
  | reloaded (call : Nat) (subscription : Subscription) (context : ReloadContext)
  | changed (call : Nat) (payload : Payload)
  | answered (call : Nat) (result : SetResult)

variable (config : Config) (key : String)

def requiresApproval (actor : String) : Bool :=
  isAgent actor && config.approvals && (isCredentialKey key || adminOnlyKeys.contains key)

variable (underCap : Bool)

/-- `underCap` is the answer of the rate limiter, when there is one to ask. -/
def checkRate (actor operation key : String) : Option SetResult :=
  if config.rateLimiter && isAgent actor && !underCap then
    some (.refused operation key (.rateLimited actor))
  else none

inductive Decision where
  | answer (result : SetResult)
  | submit
  | run

/-- Every operation checks its key, then the rate, then whether it has to wait. -/
def prologue (actor operation key : String) (refusal : Option Refusal) (waits : Bool) : Decision :=
  match refusal with
  | some refusal => .answer (.refused operation key refusal)
  | none =>
    match checkRate config underCap actor operation key with
    | some result => .answer result
    | none => if waits then .submit else .run

def allowedCheck : Option Refusal :=
  if isAllowedKey key then none else some (.notAllowed key)

def credentialCheck : Option Refusal :=
  if isCredentialKey key then none else some (.notCredential key)

def set (config : Config) (underCap : Bool) (key actor : String) : Decision :=
  prologue config underCap actor "set" key (allowedCheck key) (requiresApproval config key actor)

def append (config : Config) (underCap : Bool) (key actor : String) : Decision :=
  prologue config underCap actor "append" key (allowedCheck key) (requiresApproval config key actor)

def updateItem (key actor : String) : Decision :=
  prologue config underCap actor "update_item" key (allowedCheck key)
    (requiresApproval config key actor)

def deleteItem (key actor : String) : Decision :=
  prologue config underCap actor "delete_item" key (allowedCheck key)
    (requiresApproval config key actor)

def setCredential (key actor : String) : Decision :=
  prologue config underCap actor "credential_store" key (credentialCheck key)
    (requiresApproval config key actor)

/-- Any vault identifier is accepted, and every agent has to wait. -/
def storeVaultCredential (vaultId actor : String) : Decision :=
  prologue config underCap actor "credential_store" vaultId none (isAgent actor && config.approvals)

def deleteVaultCredential (vaultId actor : String) : Decision :=
  prologue config underCap actor "credential_delete" vaultId none
    (isAgent actor && config.approvals)

def deleteCredential (key actor : String) : Decision :=
  prologue config underCap actor "credential_delete" key (credentialCheck key)
    (requiresApproval config key actor)

def Request.decide (request : Request) : Decision :=
  match request.operation with
  | .set key .. => set config underCap key request.actor
  | .append key .. => append config underCap key request.actor
  | .updateItem key .. => updateItem config underCap key request.actor
  | .deleteItem key .. => deleteItem config underCap key request.actor
  | .setCredential key .. => setCredential config underCap key request.actor
  | .storeVaultCredential vaultId .. => storeVaultCredential config underCap vaultId request.actor
  | .deleteVaultCredential vaultId .. => deleteVaultCredential config underCap vaultId request.actor
  | .deleteCredential key => deleteCredential config underCap key request.actor

end Settings
end BreadMind
