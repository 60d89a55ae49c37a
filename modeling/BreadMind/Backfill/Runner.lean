import BreadMind.Base.Values
import BreadMind.Execution.Programs
import Mathlib.Algebra.Order.Ring.Rat

namespace BreadMind
namespace Backfill

open Execution

/-!
# The backfill runner

A job yields items, and each of them is filtered, redacted, embedded and
stored, until the items are used up, the token budget is reached, too many
items have failed, or something raises.  Whatever happened, the last block
tears the job down, writes the final checkpoint and gives the job row its
status.

What the collaborators answer is given with the item they are asked about, and
for the clock and the checkpoint writes by a function of how often they were
asked.  Times are microseconds.
-/

abbrev Timestamp := Int

structure BackfillItem where
  sourceKind : String
  sourceNativeId : String
  sourceUri : String
  sourceCreatedAt : Timestamp
  sourceUpdatedAt : Timestamp
  title : String
  body : String
  author : Option String
  parentRef : Option String

/-- What a collaborator may throw.  A cancellation is not an `Exception`, so
`except Exception` lets it pass. -/
inductive Thrown where
  | skipped (reason : String)
  | secretDetected
  | exception (error : PyError)
  | cancelled
  deriving DecidableEq

def Thrown.isException : Thrown -> Bool
  | cancelled => false
  | _ => true

def Thrown.text : Thrown -> String
  | skipped reason => reason
  | secretDetected => ""
  | exception error => error.text
  | cancelled => ""

structure JobProgress where
  discovered : Nat := 0
  filteredOut : Nat := 0
  redacted : Nat := 0
  embedded : Nat := 0
  stored : Nat := 0
  skippedExisting : Nat := 0
  errors : Nat := 0
  tokensConsumed : Nat := 0

inductive Verdict where
  | keep
  | drop (skipReason : Option String)

/-- What the collaborators answer for one item: the filter, the two calls of
the redactor, the embedder, and the two statements that store it. -/
structure Answers where
  filter : Except Thrown Verdict
  redact : Except Thrown String
  embed : Except Thrown (List Rat)
  insert : Option Thrown
  cite : Option Thrown

structure Visit where
  item : BackfillItem
  answers : Answers

/-- What `discover()` yields, and what it raises afterwards, if it does. -/
structure Listing where
  visits : List Visit
  ending : Option Thrown

structure Job (Cursor : Type) where
  orgId : UUID
  dryRun : Bool
  tokenBudget : Nat
  listing : Listing
  cursorOf : BackfillItem -> Cursor
  archivedChannels : Nat

structure Settings where
  checkpointer : Bool
  checkpointEveryN : Nat
  checkpointEverySeconds : Rat
  errorRatioThreshold : Rat
  errorRatioMinItems : Nat

/-- The clock and the database outside the item pipeline.  A statement that
raises has not been applied. -/
structure Surroundings where
  prepare : Option Thrown
  start : Option Thrown
  clock : Nat -> Rat
  checkpoint : Nat -> Option Thrown
  teardown : Option Thrown
  finalCheckpoint : Option Thrown
  finish : Option Thrown

inductive JobStatus where
  | running
  | completed
  | paused
  | failed

structure JobRow (Cursor : Type) where
  status : JobStatus
  lastCursor : Option Cursor
  progress : JobProgress
  skipped : List (String × Nat)
  error : Option String

/-- A row in `org_knowledge` that is not superseded. -/
structure KnowledgeRow where
  projectId : UUID
  title : String
  body : String
  embedding : List Rat
  author : Option String
  sourceKind : String
  sourceNativeId : String
  sourceCreatedAt : Timestamp
  sourceUpdatedAt : Timestamp
  parentRef : Option String

structure SourceRow where
  knowledge : Nat
  sourceType : String
  sourceUri : String
  sourceRef : String

structure RunState (Cursor : Type) where
  knowledge : List KnowledgeRow
  sources : List SourceRow
  row : Option (JobRow Cursor) := none
  progress : JobProgress := {}
  skipped : List (String × Nat) := []
  sampleTitles : List String := []
  budgetHit : Bool := false
  aborted : Bool := false
  errorMessage : Option String := none
  lastItem : Option BackfillItem := none
  lastCpCount : Nat := 0
  lastCpTime : Rat := 0
  clockReads : Nat := 0
  checkpointWrites : Nat := 0

inductive Outcome where
  | stored
  | dropped
  | errored
  | budgetHalt

inductive Signal where
  | next
  | stop

abbrev Running (Cursor Value : Type) := Program (RunState Cursor) Thrown Value

variable {Cursor : Type}

def countSkip (reason : String) (skipped : List (String × Nat)) : List (String × Nat) :=
  if skipped.any (fun entry => entry.1 == reason) then
    skipped.map fun entry => if entry.1 == reason then (reason, entry.2 + 1) else entry
  else skipped ++ [(reason, 1)]

def skip (reason : String) : Running Cursor PUnit :=
  modify fun state => { state with skipped := countSkip reason state.skipped }

def count (change : JobProgress -> JobProgress) : Running Cursor PUnit :=
  modify fun state => { state with progress := change state.progress }

def sampleLimit : Nat := 10

/-! ## Checkpoints -/

variable (job : Job Cursor)

/-- The statement writes the cursor of the last item and the counters. -/
def writeCheckpoint (answer : Option Thrown) : Running Cursor PUnit :=
  match answer with
  | some thrown => throw thrown
  | none => modify fun state =>
    { state with
      row := state.row.map fun row =>
        { row with
          lastCursor := state.lastItem.map job.cursorOf
          progress := state.progress
          skipped := state.skipped } }

variable (settings : Settings) (around : Surroundings)

def maybeCheckpoint (job : Job Cursor) : Running Cursor PUnit := do
  if settings.checkpointer then
    let state <- get
    let now := around.clock state.clockReads
    modify fun state => { state with clockReads := state.clockReads + 1 }
    if state.progress.discovered - state.lastCpCount < settings.checkpointEveryN ∧
        now - state.lastCpTime < settings.checkpointEverySeconds then
      pure ⟨⟩
    else
      modify fun state => { state with checkpointWrites := state.checkpointWrites + 1 }
      writeCheckpoint job (around.checkpoint state.checkpointWrites)
      modify fun after =>
        { after with lastCpCount := state.progress.discovered, lastCpTime := now }

def maybeAbort (progress : JobProgress) : Bool :=
  !(progress.discovered < settings.errorRatioMinItems) &&
    settings.errorRatioThreshold * progress.discovered < progress.errors

/-- `f"{ratio:.0%}"`; a tie goes to the even percent. -/
def percent (ratio : Rat) : String :=
  let down := (ratio * 100).floor
  let rest := ratio * 100 - down
  let rounded := if rest < 1 / 2 ∨ rest = 1 / 2 ∧ down % 2 = 0 then down else down + 1
  toString rounded ++ "%"

def abortMessage (progress : JobProgress) : String :=
  "error rate " ++ toString progress.errors ++ "/" ++ toString progress.discovered ++
    " exceeds " ++ percent settings.errorRatioThreshold ++ " threshold"

def KnowledgeRow.isFor (row : KnowledgeRow) (orgId : UUID) (item : BackfillItem) : Bool :=
  row.projectId == orgId && row.sourceKind == item.sourceKind &&
    row.sourceNativeId == item.sourceNativeId

def knowledgeRow (orgId : UUID) (item : BackfillItem) (body : String) (embedding : List Rat) :
    KnowledgeRow where
  projectId := orgId
  title := item.title
  body := body
  embedding := embedding
  author := item.author
  sourceKind := item.sourceKind
  sourceNativeId := item.sourceNativeId
  sourceCreatedAt := item.sourceCreatedAt
  sourceUpdatedAt := item.sourceUpdatedAt
  parentRef := item.parentRef

/-- An `Exception` is counted as an error of the item, anything else passes. -/
def countError (thrown : Thrown) : Running Cursor Outcome := do
  if thrown.isException then
    count fun progress => { progress with errors := progress.errors + 1 }
    pure .errored
  else throw thrown

variable (visit : Visit)

/-- `ON CONFLICT DO NOTHING`, and the citation of a row that is new. -/
def store (body : String) (embedding : List Rat) : Running Cursor Outcome := do
  match visit.answers.insert with
  | some thrown => countError thrown
  | none =>
    let state <- get
    if state.knowledge.any (fun row => row.isFor job.orgId visit.item) then
      skip "skipped_existing"
      count fun progress => { progress with skippedExisting := progress.skippedExisting + 1 }
      pure .stored
    else
      modify fun state => { state with
        knowledge := state.knowledge ++ [knowledgeRow job.orgId visit.item body embedding] }
      match visit.answers.cite with
      | some thrown => countError thrown
      | none =>
        modify fun after => { after with
          sources := after.sources ++ [
            { knowledge := state.knowledge.length
              sourceType := visit.item.sourceKind
              sourceUri := visit.item.sourceUri
              sourceRef := visit.item.sourceNativeId }] }
        count fun progress => { progress with stored := progress.stored + 1 }
        pure .stored

def embedAndStore (body : String) : Running Cursor Outcome := do
  match visit.answers.embed with
  | .error thrown => countError thrown
  | .ok embedding =>
    count fun progress => { progress with embedded := progress.embedded + 1 }
    store job visit body embedding

/-- `_process_item`: the budget gate, then redact, embed and store. -/
def processItem : Running Cursor Outcome := do
  let state <- get
  let projected := visit.item.body.length / 4
  if job.tokenBudget ≤ state.progress.tokensConsumed + projected then
    skip "budget_halted"
    pure .budgetHalt
  else
    match visit.answers.redact with
    | .error .secretDetected =>
      skip "redact_dropped"
      pure .dropped
    | .error thrown => countError thrown
    | .ok body =>
      count fun progress =>
        { progress with
          redacted := progress.redacted + 1
          tokensConsumed := progress.tokensConsumed + projected }
      embedAndStore job visit body

def concludeItem (job : Job Cursor) (item : BackfillItem) : Outcome -> Running Cursor Signal
  | .budgetHalt => do
    modify fun state => { state with budgetHit := true }
    pure .stop
  | .errored => do
    let state <- get
    if maybeAbort settings state.progress then
      modify fun state => { state with
        aborted := true, errorMessage := some (abortMessage settings state.progress) }
      pure .stop
    else
      maybeCheckpoint settings around job
      pure .next
  | .stored => do
    modify fun state => { state with lastItem := some item }
    maybeCheckpoint settings around job
    pure .next
  | .dropped => do
    maybeCheckpoint settings around job
    pure .next

def attemptItem (job : Job Cursor) (visit : Visit) : Running Cursor Signal := do
  match <- Program.ofExcept visit.answers.filter with
  | .drop skipReason =>
    skip (skipReason.getD "filtered")
    count fun progress => { progress with filteredOut := progress.filteredOut + 1 }
    maybeCheckpoint settings around job
    pure .next
  | .keep =>
    modify fun state =>
      if state.sampleTitles.length < sampleLimit then
        { state with sampleTitles := state.sampleTitles ++ [visit.item.title] }
      else state
    if job.dryRun then
      count fun progress => { progress with
        tokensConsumed := progress.tokensConsumed + visit.item.body.length / 4 }
      modify fun state => { state with lastItem := some visit.item }
      maybeCheckpoint settings around job
      pure .next
    else
      let outcome <- processItem job visit
      concludeItem settings around job visit.item outcome

def skipItem (job : Job Cursor) (thrown : Thrown) : Running Cursor Signal := do
  match thrown with
  | .skipped reason =>
    skip reason
    count fun progress => { progress with filteredOut := progress.filteredOut + 1 }
    maybeCheckpoint settings around job
    pure .next
  | _ => throw thrown

def visitItem (job : Job Cursor) (visit : Visit) : Running Cursor Signal := do
  count fun progress => { progress with discovered := progress.discovered + 1 }
  tryCatch (attemptItem settings around job visit) (skipItem settings around job)

/-- `async for item in job.discover()`.  The answer tells whether the items
were used up; `break` leaves the loop early. -/
def loop (settings : Settings) (around : Surroundings) (job : Job Cursor) :
    List Visit -> Running Cursor Bool
  | [] =>
    match job.listing.ending with
    | some thrown => throw thrown
    | none => pure true
  | visit :: rest => do
    match <- visitItem settings around job visit with
    | .stop => pure false
    | .next => loop settings around job rest

/-! ## The last block -/

def foldArchived (archived : Nat) (skipped : List (String × Nat)) : List (String × Nat) :=
  if archived = 0 then skipped
  else
    let kept := skipped.filter fun entry => entry.1 != "archived"
    kept ++ [("archived", max ((skipped.lookup "archived").getD 0) archived)]

/-- The teardown; its exception is kept for later, a cancellation is not. -/
def tearDown : Running Cursor (Option Thrown) := do
  match around.teardown with
  | none => pure none
  | some thrown =>
    if thrown.isException then
      modify fun state =>
        if state.errorMessage.isNone then
          { state with
            errorMessage := some ("teardown failed: " ++ thrown.text), aborted := true }
        else state
      pure (some thrown)
    else throw thrown

def finalStatus (state : RunState Cursor) : JobStatus × Option String :=
  if state.aborted then (.failed, state.errorMessage)
  else if state.budgetHit then (.paused, none)
  else (.completed, none)

def finish (answer : Option Thrown) : Running Cursor PUnit :=
  match answer with
  | some thrown => throw thrown
  | none => modify fun state =>
    { state with row := state.row.map fun row =>
        { row with status := (finalStatus state).1, error := (finalStatus state).2 } }

def lastBlock (job : Job Cursor) : Running Cursor PUnit := do
  modify fun state => { state with skipped := foldArchived job.archivedChannels state.skipped }
  let teardownError <- tearDown around
  if settings.checkpointer then
    writeCheckpoint job around.finalCheckpoint
    finish around.finish
  match teardownError with
  | some thrown => throw thrown
  | none => pure ⟨⟩

structure JobReport (Cursor : Type) where
  estimatedCount : Int
  estimatedTokens : Nat
  indexedCount : Nat
  skipped : List (String × Nat)
  errors : Nat
  sampleTitles : List String
  budgetHit : Bool
  cursor : Option Cursor
  aborted : Bool
  error : Option String

def report (state : RunState Cursor) : JobReport Cursor where
  estimatedCount :=
    if job.dryRun then state.progress.discovered - state.progress.filteredOut
    else state.progress.discovered - state.progress.filteredOut - state.progress.errors -
      ((state.skipped.lookup "redact_dropped").getD 0 : Nat) -
      ((state.skipped.lookup "budget_halted").getD 0 : Nat)
  estimatedTokens := state.progress.tokensConsumed
  indexedCount := if job.dryRun then 0 else state.progress.stored
  skipped := state.skipped
  errors := state.progress.errors
  sampleTitles := state.sampleTitles
  budgetHit := state.budgetHit
  cursor := state.lastItem.map job.cursorOf
  aborted := state.aborted
  error := state.errorMessage

/-- `start`: the row is there before any item is touched. -/
def startRow : Running Cursor PUnit := do
  if settings.checkpointer then
    match around.start with
    | some thrown => throw thrown
    | none => modify fun state => { state with
        row := some
          { status := .running, lastCursor := none, progress := {}, skipped := [], error := none } }

/-- The item loop, with its first reading of the clock. -/
def items (job : Job Cursor) : Running Cursor Bool := do
  modify fun state => { state with
    lastCpTime := around.clock state.clockReads, clockReads := state.clockReads + 1 }
  loop settings around job job.listing.visits

/-- `try: ... finally: ...`: what the last block raises replaces what the loop raised. -/
def finallyReport (job : Job Cursor)
    (looped : Except Thrown Bool) : Running Cursor (JobReport Cursor) := do
  lastBlock settings around job
  match looped with
  | .error thrown => throw thrown
  | .ok _ =>
    let state <- get
    pure (report job state)

def run (settings : Settings) (around : Surroundings) (job : Job Cursor) :
    Running Cursor (JobReport Cursor) := do
  match around.prepare with
  | some thrown => throw thrown
  | none =>
    startRow settings around
    let looped <- tryCatch ((items settings around job).map Except.ok)
      (fun thrown => pure (.error thrown))
    finallyReport settings around job looped

end Backfill
end BreadMind
