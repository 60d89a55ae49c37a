import BreadMind.Flow.Dag

namespace BreadMind
namespace Flow

open Execution

/-!
# The event store and its projection

Appending an event gives it the next number of its flow, inserts it into the
log and updates two tables, one row for the flow and one row for each step.
All of this is one transaction: when the update raises, nothing is appended.

Appends of one flow exclude each other, so an append is one step here.  The
tables are kept for each flow separately, as every statement names its flow.
-/

abbrev Instant := Nat

/-- An event as it is given to the store, with the keys of its payload that
only the store and the bus read. -/
structure StoreEvent extends FlowEvent where
  title : Option String := none
  description : Option String := none
  userId : Option String := none
  origin : Option String := none
  summary : Option Json := none

structure StoredEvent extends StoreEvent where
  seq : Nat

inductive FlowStatus where
  | pending
  | running
  | paused
  | escalated
  | completed
  | failed
  | cancelled

def FlowStatus.terminal : FlowStatus -> Bool
  | .completed => true
  | .failed => true
  | .cancelled => true
  | _ => false

inductive StepStatus where
  | pending
  | queued
  | running
  | completed
  | failed

structure FlowRow where
  title : String
  description : String
  userId : String
  status : FlowStatus
  origin : String
  lastEventSeq : Nat
  updatedAt : Instant
  summary : Option Json := none

structure StepContent where
  stepId : StepId
  title : String
  tool : Json
  args : Json
  dependsOn : List StepId

structure StepRow extends StepContent where
  status : StepStatus := .pending
  attempt : Nat := 0
  startedAt : Option Instant := none
  completedAt : Option Instant := none
  result : Option Json := none
  error : Option String := none

structure FlowRecord where
  log : List StoredEvent := []
  flow : Option FlowRow := none
  steps : List StepRow := []

def textColumn : Json -> Except PyError Json
  | .null => .ok .null
  | .str text => .ok (.str text)
  | _ => .error (.raised "DataError" "invalid input for query argument: expected str")

/-- The `INSERT ... ON CONFLICT DO NOTHING` of one proposed step. -/
def insertStep (flowExists : Bool) (rows : List StepRow) (entry : StepDict) :
    Except PyError (List StepRow) := do
  let stepId ← required "id" entry.id
  let title ← required "title" entry.title
  let tool ← textColumn (entry.tool.getD .null)
  if stepId ∈ rows.map (fun row => row.stepId) then .ok rows
  else if flowExists then
    .ok (rows ++ [{ stepId, title, tool, args := entry.args.getD (.obj [])
                    dependsOn := entry.dependsOn.getD [] }])
  else .error (.raised "ForeignKeyViolationError" "flow_steps_flow_id_fkey")

namespace FlowRecord

def setFlow (record : FlowRecord) (change : FlowRow -> FlowRow) : FlowRecord :=
  { record with flow := record.flow.map change }

def touch (record : FlowRecord) (seq : Nat) (now : Instant) : FlowRecord :=
  record.setFlow fun flow => { flow with updatedAt := now, lastEventSeq := seq }

def setStatus (record : FlowRecord) (status : FlowStatus) (seq : Nat) (now : Instant) : FlowRecord :=
  record.setFlow fun flow => { flow with status, updatedAt := now, lastEventSeq := seq }

def setStep (record : FlowRecord) (sid : StepId) (change : StepRow -> StepRow) : FlowRecord :=
  { record with steps := record.steps.map fun row => if row.stepId = sid then change row else row }

/-- `_apply_projection`. -/
def project (record : FlowRecord) (event : StoredEvent) (now : Instant) :
    Except PyError FlowRecord :=
  match event.eventType with
  | .flowCreated => do
    let title ← required "title" event.title
    let userId ← required "user_id" event.userId
    match record.flow with
    | some _ => return record
    | none =>
      return { record with
        flow := some
          { title, userId
            description := event.description.getD ""
            status := .pending
            origin := event.origin.getD "chat"
            lastEventSeq := event.seq
            updatedAt := now } }
  | .dagProposed => do
    let steps ← (event.payload.steps.getD []).foldlM (insertStep record.flow.isSome) record.steps
    return { record with steps }.touch event.seq now
  | .stepQueued => do
    let sid ← required "step_id" event.payload.stepId
    return (record.setStep sid fun row => { row with status := .queued }).touch event.seq now
  | .stepStarted => do
    let sid ← required "step_id" event.payload.stepId
    return (record.setStep sid fun row =>
      { row with status := .running, startedAt := some now, attempt := row.attempt + 1 }).setStatus
        .running event.seq now
  | .stepCompleted => do
    let sid ← required "step_id" event.payload.stepId
    return (record.setStep sid fun row =>
      { row with
        status := .completed
        completedAt := some now
        result := some (event.payload.result.getD .null) }).touch event.seq now
  | .stepFailed => do
    let sid ← required "step_id" event.payload.stepId
    return (record.setStep sid fun row =>
      { row with
        status := .failed
        completedAt := some now
        error := some (event.payload.error.getD "") }).touch event.seq now
  | .flowCompleted =>
    .ok (record.setFlow fun flow =>
      { flow with
        status := .completed
        updatedAt := now
        lastEventSeq := event.seq
        summary := some (event.summary.getD (.obj [])) })
  | .flowFailed => .ok (record.setStatus .failed event.seq now)
  | .flowPaused => .ok (record.setStatus .paused event.seq now)
  | .flowResumed => .ok (record.setStatus .running event.seq now)
  | .flowCancelled => .ok (record.setStatus .cancelled event.seq now)
  | .escalationRaised => .ok (record.setStatus .escalated event.seq now)
  | _ => .ok (record.touch event.seq now)

def maxSeq (record : FlowRecord) : Nat :=
  (record.log.map fun stored => stored.seq).foldr max 0

def append (record : FlowRecord) (event : StoreEvent) (now : Instant) :
    Except PyError (StoredEvent × FlowRecord) := do
  let stored : StoredEvent := { event with seq := record.maxSeq + 1 }
  let projected ← record.project stored now
  return (stored, { projected with log := record.log ++ [stored] })

end FlowRecord

abbrev FlowStore := UUID -> FlowRecord

def FlowStore.append (store : FlowStore) (event : StoreEvent) (now : Instant) :
    Except PyError (StoredEvent × FlowStore) := do
  let (stored, record) ← (store event.flowId).append event now
  return (stored, Function.update store event.flowId record)

variable {record after : FlowRecord} {event : StoreEvent} {stored : StoredEvent} {now : Instant}

theorem FlowRecord.maxSeq_appended (log : after.log = record.log ++ [stored])
    (numbered : stored.seq = record.maxSeq + 1) : after.maxSeq = record.maxSeq + 1 := by
  have last : ∀ (seqs : List Nat) (seq : Nat), (seqs ++ [seq]).foldr max 0 =
      max (seqs.foldr max 0) seq := by
    intro seqs seq
    induction seqs with
    | nil => exact Nat.max_comm _ _
    | cons head rest ih =>
      rw [List.cons_append, List.foldr_cons, ih, List.foldr_cons, Nat.max_assoc]
  unfold FlowRecord.maxSeq at numbered ⊢
  rw [log, List.map_append, List.map_singleton, last, numbered]
  exact Nat.max_eq_right (Nat.le_succ _)

theorem FlowRecord.append_eq_ok (appended : record.append event now = .ok (stored, after)) :
    stored = { event with seq := record.maxSeq + 1 } ∧ ∃ projected,
      record.project stored now = .ok projected ∧
        after = { projected with log := record.log ++ [stored] } := by
  rcases bind_eq_ok.mp appended with ⟨projected, done, built⟩
  cases built
  exact ⟨rfl, projected, done, rfl⟩

theorem FlowStore.append_eq_ok {store later : FlowStore}
    (appended : store.append event now = .ok (stored, later)) :
    ∃ record, (store event.flowId).append event now = .ok (stored, record) ∧
      later = Function.update store event.flowId record := by
  rcases bind_eq_ok.mp appended with ⟨⟨first, record⟩, done, built⟩
  cases built
  exact ⟨record, done, rfl⟩

end Flow
end BreadMind
