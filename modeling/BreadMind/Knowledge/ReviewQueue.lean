import BreadMind.Execution.Machine
import BreadMind.Knowledge.Entries
import Mathlib.Data.Rat.Floor
import Mathlib.Logic.Function.Basic
import Mathlib.Logic.Relation

namespace BreadMind
namespace Knowledge

open Execution
open Function (update update_of_ne update_self)

/-!
# The review queue

Reviewers approve candidates, reject them or send them back for an edit, and
any number of these calls overlap.  An approval is one transaction: it locks
the row of its candidate, looks at the status, and shows what it wrote when it
commits.  A rejection and an edit are statements on their own, and they do not
look at the status.

A row drawn by an approval has its identifier from the moment it is inserted,
while the other transactions see it from the commit on.  So identifiers follow
the order in which rows are created, which need not be the order in which they
appear.
-/

inductive ReviewOperation where
  | approve (candidateId : Nat) (reviewer : String)
  | reject (candidateId : Nat) (reviewer reason : String)
  | needsEdit (candidateId : Nat) (reviewer newBody : String)

inductive ReviewAudit where
  | enqueueCandidate (candidateId : Nat) (projectId : UUID) (category : String)
      (confidence : Rat) (sensitiveFlag : Bool)
  | promote (actor : String) (entryId : Nat) (projectId : UUID) (candidateId : Nat)
      (category : String) (superseded : Option Nat)
  | reject (actor : String) (candidateId : Nat) (projectId : UUID) (reason : String)
  | needsEdit (actor : String) (candidateId : Nat) (projectId : UUID) (bodyChars : Nat)

inductive ReviewStage where
  | begun
  -- within the transaction of an approval
  | locked (candidate : PromotionCandidate)
  | embedded (candidate : PromotionCandidate) (embedding : List Rat)
  | inserted (candidate : PromotionCandidate) (entryId : Nat) (embedding : List Rat)
  | searched (candidate : PromotionCandidate) (entryId : Nat) (embedding : List Rat)
      (duplicate : Option Nat)
  | linked (candidate : PromotionCandidate) (entryId : Nat) (embedding : List Rat)
      (duplicate : Option Nat)
  -- between the statements of a rejection or an edit
  | selected (projectId : UUID)
  | updated (projectId : UUID)
  | returned (entryId : Option Nat)
  | raised (error : PyError)

structure ReviewCall where
  operation : ReviewOperation
  stage : ReviewStage

/-- The locks map the identifier of a row to the call whose transaction holds it. -/
structure ReviewState where
  candidates : Nat -> Option PromotionCandidate := fun _ => none
  entries : List KnowledgeEntry := []
  sources : List KnowledgeSource := []
  audit : List ReviewAudit := []
  calls : Nat -> Option ReviewCall := fun _ => none
  candidateLocks : Nat -> Option Nat := fun _ => none
  entryLocks : Nat -> Option Nat := fun _ => none
  nextCandidate : Nat := 1
  nextEntry : Nat := 1

structure ExtractedCandidate where
  proposedTitle : String
  proposedBody : String
  proposedCategory : String
  confidence : Rat
  sources : List CandidateSource
  originalUser : Option String
  projectId : UUID
  sensitiveFlag : Bool

/-- `failed` stands for whatever makes a statement of the call raise, and for
its cancellation. -/
inductive ReviewInput where
  | enqueue (candidate : ExtractedCandidate)
  | backfill (orgId : UUID) (item : Backfill.BackfillItem) (body : String) (embedding : List Rat)
  | start (call : Nat) (operation : ReviewOperation)
  | embed (call : Nat) (embedding : List Rat)
  | advance (call : Nat)
  | failed (call : Nat) (error : PyError)

def CandidateStatus.text : CandidateStatus -> String
  | pending => "pending"
  | approved => "approved"
  | rejected => "rejected"
  | needsEdit => "needs_edit"

/-- `cand["status"] in ("pending", "needs_edit")`. -/
def CandidateStatus.isOpen : CandidateStatus -> Bool
  | pending => true
  | needsEdit => true
  | _ => false

def candidateNotFound (candidateId : Nat) : PyError :=
  .valueError ("candidate " ++ toString candidateId ++ " not found")

def candidateNotOpen (candidate : PromotionCandidate) : PyError :=
  .valueError ("candidate " ++ toString candidate.id ++ " status=" ++ candidate.status.text)

def candidateOf (id : Nat) (candidate : ExtractedCandidate) : PromotionCandidate where
  id := id
  projectId := candidate.projectId
  extractedFrom := "knowledge_extractor"
  originalUser := candidate.originalUser
  proposedTitle := candidate.proposedTitle
  proposedBody := candidate.proposedBody
  proposedCategory := candidate.proposedCategory
  sources := candidate.sources
  confidence := candidate.confidence
  status := if candidate.sensitiveFlag then .needsEdit else .pending
  sensitiveFlag := candidate.sensitiveFlag
  reviewer := none

def enqueue (state : ReviewState) (candidate : ExtractedCandidate) : ReviewState :=
  let id := state.nextCandidate
  { state with
    candidates := update state.candidates id (some (candidateOf id candidate))
    audit := state.audit ++ [.enqueueCandidate id candidate.projectId candidate.proposedCategory
      candidate.confidence candidate.sensitiveFlag]
    nextCandidate := id + 1 }

/-- The store of the backfill runner.  A refused insert has drawn an identifier too. -/
def backfill (state : ReviewState) (row : Backfill.KnowledgeRow) : ReviewState :=
  { state with
    entries := insertBackfilled state.nextEntry row state.entries
    nextEntry := state.nextEntry + 1 }

def ReviewState.setStage (state : ReviewState) (call : Nat) (operation : ReviewOperation)
    (stage : ReviewStage) : ReviewState :=
  { state with calls := update state.calls call (some ⟨operation, stage⟩) }

/-- `SELECT * ... FOR UPDATE`, and the check of the status. -/
def lockCandidate (state : ReviewState) (call candidateId : Nat) (operation : ReviewOperation) :
    ReviewState :=
  match state.candidateLocks candidateId with
  | some _ => state
  | none =>
    match state.candidates candidateId with
    | none => state.setStage call operation (.raised (candidateNotFound candidateId))
    | some candidate =>
      if candidate.status.isOpen then
        { state.setStage call operation (.locked candidate) with
          candidateLocks := update state.candidateLocks candidateId (some call) }
      else state.setStage call operation (.raised (candidateNotOpen candidate))

/-- `UPDATE org_knowledge SET superseded_by`; a row that another transaction
has updated is waited for. -/
def linkDuplicate (state : ReviewState) (call : Nat) (operation : ReviewOperation)
    (candidate : PromotionCandidate) (entryId : Nat) (embedding : List Rat) :
    Option Nat -> ReviewState
  | none => state.setStage call operation (.linked candidate entryId embedding none)
  | some duplicate =>
    match state.entryLocks duplicate with
    | some _ => state
    | none =>
      { state.setStage call operation (.linked candidate entryId embedding (some duplicate)) with
        entryLocks := update state.entryLocks duplicate (some call) }

/-- The locks which a transaction leaves behind. -/
def releaseLocks (call : Nat) (locks : Nat -> Option Nat) : Nat -> Option Nat :=
  fun row => if locks row = some call then none else locks row

/-- The status of the candidate, the audit row, and the commit. -/
def commitPromotion (state : ReviewState) (call : Nat) (operation : ReviewOperation)
    (reviewer : String) (candidate : PromotionCandidate) (entryId : Nat) (embedding : List Rat)
    (duplicate : Option Nat) : ReviewState :=
  { state.setStage call operation (.returned (some entryId)) with
    candidates := update state.candidates candidate.id
      (some { candidate with status := .approved, reviewer := some reviewer })
    entries := (match duplicate with
      | some older => supersede older entryId state.entries
      | none => state.entries) ++ [promotedEntry entryId candidate reviewer embedding]
    sources := state.sources ++ promotedSources entryId candidate
    audit := state.audit ++ [.promote reviewer entryId candidate.projectId candidate.id
      candidate.proposedCategory duplicate]
    candidateLocks := releaseLocks call state.candidateLocks
    entryLocks := releaseLocks call state.entryLocks }

def advanceApproval (distance : List Rat -> List Rat -> Rat) (state : ReviewState) (call : Nat)
    (operation : ReviewOperation) (candidateId : Nat) (reviewer : String) :
    ReviewStage -> ReviewState
  | .begun => lockCandidate state call candidateId operation
  | .embedded candidate embedding =>
    { state.setStage call operation (.inserted candidate state.nextEntry embedding) with
      nextEntry := state.nextEntry + 1 }
  | .inserted candidate entryId embedding =>
    state.setStage call operation (.searched candidate entryId embedding
      (nearestDuplicate distance candidate.projectId entryId embedding state.entries))
  | .searched candidate entryId embedding duplicate =>
    linkDuplicate state call operation candidate entryId embedding duplicate
  | .linked candidate entryId embedding duplicate =>
    commitPromotion state call operation reviewer candidate entryId embedding duplicate
  | _ => state

/-- `SELECT project_id ... WHERE id = $1`. -/
def selectProject (state : ReviewState) (call candidateId : Nat) (operation : ReviewOperation) :
    ReviewState :=
  match state.candidates candidateId with
  | none => state.setStage call operation (.raised (candidateNotFound candidateId))
  | some candidate => state.setStage call operation (.selected candidate.projectId)

/-- `UPDATE promotion_candidates ... WHERE id = $1`, which waits for the row. -/
def updateCandidate (state : ReviewState) (call candidateId : Nat) (operation : ReviewOperation)
    (projectId : UUID) (change : PromotionCandidate -> PromotionCandidate) : ReviewState :=
  match state.candidateLocks candidateId with
  | some _ => state
  | none =>
    { state.setStage call operation (.updated projectId) with
      candidates := update state.candidates candidateId
        ((state.candidates candidateId).map change) }

def markRejected (reviewer : String) (candidate : PromotionCandidate) : PromotionCandidate :=
  { candidate with status := .rejected, reviewer := some reviewer }

def markNeedsEdit (reviewer newBody : String) (candidate : PromotionCandidate) :
    PromotionCandidate :=
  { candidate with status := .needsEdit, reviewer := some reviewer, proposedBody := newBody }

/-- The statements of a rejection and of an edit, which differ in the change
and in the audit row. -/
def advanceDecision (state : ReviewState) (call candidateId : Nat) (operation : ReviewOperation)
    (change : PromotionCandidate -> PromotionCandidate) (audited : UUID -> ReviewAudit) :
    ReviewStage -> ReviewState
  | .begun => selectProject state call candidateId operation
  | .selected projectId => updateCandidate state call candidateId operation projectId change
  | .updated projectId =>
    { state.setStage call operation (.returned none) with
      audit := state.audit ++ [audited projectId] }
  | _ => state

def advanceCall (distance : List Rat -> List Rat -> Rat) (state : ReviewState) (call : Nat)
    (running : ReviewCall) : ReviewState :=
  match running.operation with
  | .approve candidateId reviewer =>
    advanceApproval distance state call running.operation candidateId reviewer running.stage
  | .reject candidateId reviewer reason =>
    advanceDecision state call candidateId running.operation (markRejected reviewer)
      (fun projectId => .reject reviewer candidateId projectId reason) running.stage
  | .needsEdit candidateId reviewer newBody =>
    advanceDecision state call candidateId running.operation (markNeedsEdit reviewer newBody)
      (fun projectId => .needsEdit reviewer candidateId projectId newBody.length) running.stage

def ReviewStage.ended : ReviewStage -> Bool
  | returned _ => true
  | raised _ => true
  | _ => false

/-- The transaction is rolled back; what a rejection or an edit has written stays. -/
def rollback (state : ReviewState) (call : Nat) (running : ReviewCall) (error : PyError) :
    ReviewState :=
  { state.setStage call running.operation (.raised error) with
    candidateLocks := releaseLocks call state.candidateLocks
    entryLocks := releaseLocks call state.entryLocks }

def reviewStep (distance : List Rat -> List Rat -> Rat) (state : ReviewState) :
    ReviewInput -> ReviewState
  | .enqueue candidate => enqueue state candidate
  | .backfill orgId item body embedding =>
    backfill state (Backfill.knowledgeRow orgId item body embedding)
  | .start call operation =>
    match state.calls call with
    | none => state.setStage call operation .begun
    | some _ => state
  | .embed call embedding =>
    match state.calls call with
    | some ⟨operation, .locked candidate⟩ =>
      state.setStage call operation (.embedded candidate embedding)
    | _ => state
  | .advance call =>
    match state.calls call with
    | some running => advanceCall distance state call running
    | none => state
  | .failed call error =>
    match state.calls call with
    | some running => if running.stage.ended then state else rollback state call running error
    | none => state

def reviewMachine (distance : List Rat -> List Rat -> Rat) : Machine ReviewState ReviewInput where
  initial := {}
  step := reviewStep distance

def ReviewAudit.promotes (candidateId : Nat) : ReviewAudit -> Bool
  | promote _ _ _ other _ _ => other == candidateId
  | _ => false

/-- How often a candidate has been promoted into `org_knowledge`. -/
def ReviewState.promotions (state : ReviewState) (candidateId : Nat) : Nat :=
  state.audit.countP (ReviewAudit.promotes candidateId)

def SupersededBy (entries : List KnowledgeEntry) (older newer : Nat) : Prop :=
  ∃ entry ∈ entries, entry.id = older ∧ entry.supersededBy = some newer

structure Orderly (state : ReviewState) : Prop where
  once : ∀ candidateId, state.promotions candidateId ≤ 1
  unpromoted : ∀ candidateId candidate, state.candidates candidateId = some candidate ->
    candidate.status = .rejected -> state.promotions candidateId = 0
  later : ∀ older newer, SupersededBy state.entries older newer -> older < newer
  acyclic : ∀ id, Not (Relation.TransGen (SupersededBy state.entries) id id)

variable (distance : List Rat -> List Rat -> Rat)

/-- A candidate which has been approved or rejected keeps that status for the rest of the run. -/
def DecisionsKept (inputs : List ReviewInput) : Prop :=
  ∀ before between rest, inputs = before ++ between ++ rest ->
    ∀ candidateId candidate,
      ((reviewMachine distance).after before).candidates candidateId = some candidate ->
      candidate.status.isOpen = false ->
      (((reviewMachine distance).after (before ++ between)).candidates candidateId).map
        PromotionCandidate.status = some candidate.status

/-- What the reviewers may rely on, throughout a run. -/
def ReviewsSound (inputs : List ReviewInput) : Prop :=
  DecisionsKept distance inputs ∧ (reviewMachine distance).EveryState Orderly inputs

/-- The next statement of the call does not undo a decision, and does not let a
row which was created later point to its own. -/
def ReviewCall.Respects (state : ReviewState) (running : ReviewCall) : Prop :=
  match running.operation, running.stage with
  | .reject candidateId _ _, .selected _ =>
    ∀ candidate, state.candidates candidateId = some candidate -> candidate.status ≠ .approved
  | .needsEdit candidateId _ _, .selected _ =>
    ∀ candidate, state.candidates candidateId = some candidate ->
      candidate.status.isOpen = true
  | .approve _ _, .linked _ entryId _ (some older) => older < entryId
  | _, _ => True

def RespectsDecisions (state : ReviewState) (input : ReviewInput) : Prop :=
  ∀ call running, input = .advance call -> state.calls call = some running ->
    running.Respects state

/-! ## What one step can do -/

def ReviewStage.holds : ReviewStage -> Option PromotionCandidate
  | locked candidate => some candidate
  | embedded candidate _ => some candidate
  | inserted candidate _ _ => some candidate
  | searched candidate _ _ _ => some candidate
  | linked candidate _ _ _ => some candidate
  | _ => none

def ReviewStage.duplicate : ReviewStage -> Option Nat
  | searched _ _ _ duplicate => duplicate
  | linked _ _ _ duplicate => duplicate
  | _ => none

def ReviewState.heldBy (state : ReviewState) (call : Nat) : Option PromotionCandidate :=
  (state.calls call).bind fun running => running.stage.holds

def ReviewOperation.decision : ReviewOperation ->
    Option (Nat × (PromotionCandidate -> PromotionCandidate))
  | approve .. => none
  | reject candidateId reviewer _ => some (candidateId, markRejected reviewer)
  | needsEdit candidateId reviewer newBody => some (candidateId, markNeedsEdit reviewer newBody)

structure Moves (state next : ReviewState) (call : Nat) (running : ReviewCall) : Prop where
  candidates : next.candidates = state.candidates
  entries : next.entries = state.entries
  promotions : next.promotions = state.promotions
  calls : next.calls = update state.calls call (some running)
  locks : next.candidateLocks = state.candidateLocks
  fresh : next.nextCandidate = state.nextCandidate
  holds : running.stage.holds = state.heldBy call
  duplicate : ∀ id, running.stage.duplicate = some id ->
    ∃ entry ∈ state.entries, entry.id = id

inductive Changes (state : ReviewState) : ReviewInput -> ReviewState -> Prop where
  | idle (input : ReviewInput) : Changes state input state
  | enqueued (candidate : ExtractedCandidate) :
      Changes state (.enqueue candidate) (enqueue state candidate)
  | backfilled (orgId : UUID) (item : Backfill.BackfillItem) (body : String)
      (embedding : List Rat) : Changes state (.backfill orgId item body embedding)
        (backfill state (Backfill.knowledgeRow orgId item body embedding))
  | moved (input : ReviewInput) (call : Nat) (running : ReviewCall) (next : ReviewState)
      (moves : Moves state next call running) : Changes state input next
  | locked (call candidateId : Nat) (operation : ReviewOperation) (candidate : PromotionCandidate)
      (begun : state.calls call = some ⟨operation, .begun⟩)
      (free : state.candidateLocks candidateId = none)
      (found : state.candidates candidateId = some candidate)
      (isOpen : candidate.status.isOpen = true) :
      Changes state (.advance call)
        { state.setStage call operation (.locked candidate) with
          candidateLocks := update state.candidateLocks candidateId (some call) }
  | committed (call candidateId : Nat) (reviewer : String) (candidate : PromotionCandidate)
      (entryId : Nat) (embedding : List Rat) (duplicate : Option Nat)
      (ready : state.calls call =
        some ⟨.approve candidateId reviewer, .linked candidate entryId embedding duplicate⟩) :
      Changes state (.advance call) (commitPromotion state call (.approve candidateId reviewer)
        reviewer candidate entryId embedding duplicate)
  | decided (call candidateId : Nat) (operation : ReviewOperation) (projectId : UUID)
      (change : PromotionCandidate -> PromotionCandidate)
      (ready : state.calls call = some ⟨operation, .selected projectId⟩)
      (decision : operation.decision = some (candidateId, change))
      (free : state.candidateLocks candidateId = none) :
      Changes state (.advance call)
        { state.setStage call operation (.updated projectId) with
          candidates := update state.candidates candidateId
            ((state.candidates candidateId).map change) }
  | rolledBack (call : Nat) (running : ReviewCall) (error : PyError)
      (runs : state.calls call = some running) :
      Changes state (.failed call error) (rollback state call running error)

/-- The locks, the calls and the tables fit together. -/
structure Consistent (state : ReviewState) : Prop where
  held : ∀ call candidate, state.heldBy call = some candidate ->
    state.candidateLocks candidate.id = some call ∧
      state.candidates candidate.id = some candidate ∧ candidate.status.isOpen = true
  locked : ∀ candidateId call, state.candidateLocks candidateId = some call ->
    ∃ candidate, state.heldBy call = some candidate ∧ candidate.id = candidateId
  found : ∀ call running id, state.calls call = some running ->
    running.stage.duplicate = some id ->
    ∃ entry ∈ state.entries, entry.id = id
  keyed : ∀ candidateId candidate, state.candidates candidateId = some candidate ->
    candidate.id = candidateId ∧ candidateId < state.nextCandidate
  counted : ∀ candidateId, state.promotions candidateId ≠ 0 ->
    state.candidates candidateId ≠ none

variable {distance}

variable {state : ReviewState} {call : Nat} {operation : ReviewOperation} {stage : ReviewStage}

theorem moves_setStage (holds : stage.holds = state.heldBy call)
    (duplicate : ∀ id, stage.duplicate = some id -> ∃ entry ∈ state.entries, entry.id = id) :
    Moves state (state.setStage call operation stage) call ⟨operation, stage⟩ where
  candidates := rfl
  entries := rfl
  promotions := rfl
  calls := rfl
  locks := rfl
  fresh := rfl
  holds := holds
  duplicate := duplicate

variable {running : ReviewCall}

theorem heldBy_eq
    (runs : state.calls call = some running) : state.heldBy call = running.stage.holds := by
  unfold ReviewState.heldBy
  rw [runs]
  rfl

theorem duplicate_none (none_ : stage.duplicate = none) : ∀ id, stage.duplicate = some id ->
      ∃ entry ∈ state.entries, entry.id = id := by
  intro id some_
  rw [none_] at some_
  cases some_

variable {candidateId : Nat}

theorem lockCandidate_changes (runs : state.calls call = some ⟨operation, .begun⟩) :
    Changes state (.advance call) (lockCandidate state call candidateId operation) := by
  have raises : ∀ error, Changes state (.advance call)
      (state.setStage call operation (.raised error)) := fun error =>
    .moved _ call _ _ (moves_setStage (heldBy_eq runs).symm (duplicate_none rfl))
  unfold lockCandidate
  split
  case h_1 => exact .idle _
  case h_2 free =>
    split
    case h_1 => exact raises _
    case h_2 candidate found =>
      split
      case isTrue isOpen =>
        exact .locked call candidateId operation candidate runs free found isOpen
      case isFalse => exact raises _

variable {candidate : PromotionCandidate} {entryId : Nat} {embedding : List Rat}
variable {duplicate : Option Nat}

theorem linkDuplicate_changes (consistent : Consistent state)
    (runs : state.calls call = some ⟨operation, .searched candidate entryId embedding duplicate⟩) :
    Changes state (.advance call)
      (linkDuplicate state call operation candidate entryId embedding duplicate) := by
  have held := (heldBy_eq runs).symm
  cases duplicate with
  | none => exact .moved _ call _ _ (moves_setStage held (duplicate_none rfl))
  | some older =>
    unfold linkDuplicate
    dsimp only
    split
    · exact .idle _
    · refine .moved _ call ⟨operation, .linked candidate entryId embedding (some older)⟩ _ ?_
      exact
        { candidates := rfl, entries := rfl, promotions := rfl, calls := rfl, locks := rfl
          fresh := rfl, holds := held
          duplicate := fun id same => consistent.found call _ id runs same }

variable {reviewer : String}

theorem advanceApproval_changes (consistent : Consistent state)
    (runs : state.calls call = some ⟨.approve candidateId reviewer, stage⟩) :
    Changes state (.advance call) (advanceApproval distance state call
      (.approve candidateId reviewer) candidateId reviewer stage) := by
  have held := (heldBy_eq runs).symm
  cases stage with
  | begun => exact lockCandidate_changes runs
  | embedded candidate embedding =>
    refine .moved _ call ⟨.approve candidateId reviewer, .inserted candidate
      state.nextEntry embedding⟩ _ ?_
    exact
      { candidates := rfl, entries := rfl, promotions := rfl, calls := rfl, locks := rfl
        fresh := rfl, holds := held, duplicate := duplicate_none rfl }
  | inserted candidate entryId embedding =>
    exact .moved _ call _ _ (moves_setStage held fun id found => nearestDuplicate_mem found)
  | searched candidate entryId embedding duplicate => exact linkDuplicate_changes consistent runs
  | linked candidate entryId embedding duplicate =>
    exact .committed call candidateId reviewer candidate entryId embedding duplicate runs
  | locked candidate | selected projectId | updated projectId | returned entryId | raised error =>
    exact .idle _

variable {change : PromotionCandidate -> PromotionCandidate}

theorem advanceDecision_changes {audited : UUID -> ReviewAudit}
    (decision : operation.decision = some (candidateId, change))
    (unpromoted : ∀ projectId other, (audited projectId).promotes other = false)
    (runs : state.calls call = some ⟨operation, stage⟩) : Changes state (.advance call)
      (advanceDecision state call candidateId operation change audited stage) := by
  have held := (heldBy_eq runs).symm
  cases stage with
  | begun =>
    unfold advanceDecision selectProject
    dsimp only
    split
    · exact .moved _ call _ _ (moves_setStage held (duplicate_none rfl))
    · exact .moved _ call _ _ (moves_setStage held (duplicate_none rfl))
  | selected projectId =>
    unfold advanceDecision updateCandidate
    dsimp only
    split
    case h_1 => exact .idle _
    case h_2 free =>
      exact .decided call candidateId operation projectId change runs decision free
  | updated projectId =>
    refine .moved _ call ⟨operation, .returned none⟩ _ ?_
    refine
      { candidates := rfl, entries := rfl, promotions := ?_, calls := rfl, locks := rfl
        fresh := rfl, holds := held, duplicate := duplicate_none rfl }
    funext other
    unfold ReviewState.promotions
    change List.countP _ (state.audit ++ [audited projectId]) = _
    rw [List.countP_append, List.countP_singleton, unpromoted projectId other]
    rfl
  | locked candidate | embedded candidate embedding | inserted candidate entryId embedding
  | searched candidate entryId embedding duplicate | linked candidate entryId embedding duplicate
  | returned entryId | raised error => exact .idle _

theorem reviewStep_changes (consistent : Consistent state)
    (input : ReviewInput) : Changes state input (reviewStep distance state input) := by
  cases input with
  | enqueue candidate => exact .enqueued candidate
  | backfill orgId item body embedding => exact .backfilled orgId item body embedding
  | start call operation =>
    unfold reviewStep
    dsimp only
    split
    case h_1 unknown =>
      refine .moved _ call _ _ (moves_setStage ?_ (duplicate_none rfl))
      unfold ReviewState.heldBy
      rw [unknown]
      rfl
    case h_2 => exact .idle _
  | embed call embedding =>
    unfold reviewStep
    dsimp only
    split
    case h_1 operation candidate runs =>
      exact .moved _ call _ _ (moves_setStage (heldBy_eq runs).symm (duplicate_none rfl))
    case h_2 => exact .idle _
  | advance call =>
    unfold reviewStep
    dsimp only
    split
    case h_1 running runs =>
      rcases running with ⟨operation, stage⟩
      cases operation with
      | approve candidateId reviewer => exact advanceApproval_changes consistent runs
      | reject candidateId reviewer reason | needsEdit candidateId reviewer newBody =>
        exact advanceDecision_changes rfl (fun _ _ => rfl) runs
    case h_2 => exact .idle _
  | failed call error =>
    unfold reviewStep
    dsimp only
    split
    case h_1 running runs =>
      split
      · exact .idle _
      · exact .rolledBack call running error runs
    case h_2 => exact .idle _

/-! ## The tables stay consistent -/

theorem heldBy_update {state next : ReviewState} {call : Nat} {running : ReviewCall}
    (calls : next.calls = update state.calls call (some running)) (other : Nat) :
    next.heldBy other = if other = call then running.stage.holds else state.heldBy other := by
  unfold ReviewState.heldBy
  rw [calls]
  by_cases same : other = call
  · subst same
    rw [update_self, if_pos rfl]
    rfl
  · rw [update_of_ne same, if_neg same]

variable {next : ReviewState}

theorem found_update (consistent : Consistent state)
    (calls : next.calls = update state.calls call (some running))
    (duplicate : ∀ id, running.stage.duplicate = some id ->
      ∃ entry ∈ state.entries, entry.id = id) (kept : ∀ entry ∈ state.entries,
      ∃ after ∈ next.entries, after.id = entry.id)
    (other : Nat) (moving : ReviewCall) (id : Nat) (runs : next.calls other = some moving)
    (finds : moving.stage.duplicate = some id) : ∃ entry ∈ next.entries, entry.id = id := by
  have before : ∃ entry ∈ state.entries, entry.id = id := by
    rw [calls] at runs
    by_cases same : other = call
    · subst same
      rw [update_self] at runs
      cases runs
      exact duplicate id finds
    · rw [update_of_ne same] at runs
      exact consistent.found other moving id runs finds
  rcases before with ⟨entry, member, named⟩
  rcases kept entry member with ⟨after, later, same⟩
  exact ⟨after, later, same.trans named⟩

theorem consistent_moves
    (consistent : Consistent state) (moves : Moves state next call running) : Consistent next := by
  have holds : ∀ other, next.heldBy other = state.heldBy other := by
    intro other
    rw [heldBy_update moves.calls]
    by_cases same : other = call
    · rw [if_pos same, moves.holds, same]
    · rw [if_neg same]
  constructor
  · intro other candidate held
    rw [holds] at held
    rw [moves.locks, moves.candidates]
    exact consistent.held other candidate held
  · intro candidateId other locked
    rw [moves.locks] at locked
    rw [holds]
    exact consistent.locked candidateId other locked
  · refine found_update consistent moves.calls moves.duplicate ?_
    intro entry member
    exact ⟨entry, moves.entries ▸ member, rfl⟩
  · rw [moves.candidates, moves.fresh]
    exact consistent.keyed
  · rw [moves.candidates, moves.promotions]
    exact consistent.counted

theorem consistent_enqueue (consistent : Consistent state)
    (extracted : ExtractedCandidate) : Consistent (enqueue state extracted) := by
  have apart : ∀ candidateId candidate, state.candidates candidateId = some candidate ->
      candidateId ≠ state.nextCandidate := fun candidateId candidate found =>
    Nat.ne_of_lt (consistent.keyed candidateId candidate found).2
  constructor
  · intro call candidate held
    rcases consistent.held call candidate held with ⟨locked, found, isOpen⟩
    refine ⟨locked, ?_, isOpen⟩
    exact (update_of_ne (apart _ _ found) _ _).trans found
  · exact consistent.locked
  · exact consistent.found
  · intro candidateId candidate found
    by_cases same : candidateId = state.nextCandidate
    · subst same
      have new := (update_self _ _ _).symm.trans found
      cases new
      exact ⟨rfl, Nat.lt_succ_self _⟩
    · have old := consistent.keyed candidateId candidate
        ((update_of_ne same _ _).symm.trans found)
      exact ⟨old.1, Nat.lt_succ_of_lt old.2⟩
  · intro candidateId promoted
    unfold ReviewState.promotions enqueue at promoted
    rw [List.countP_append] at promoted
    have known := consistent.counted candidateId promoted
    intro missing
    by_cases same : candidateId = state.nextCandidate
    · subst same
      cases (update_self _ _ _).symm.trans missing
    · exact known ((update_of_ne same _ _).symm.trans missing)

variable {entries : List KnowledgeEntry} {entry : KnowledgeEntry}

theorem mem_insertBackfilled {id : Nat} {row : Backfill.KnowledgeRow}
    (member : entry ∈ insertBackfilled id row entries) :
    entry ∈ entries ∨ entry = backfilledEntry id row := by
  unfold insertBackfilled at member
  split at member
  · exact .inl member
  · rw [List.mem_append, List.mem_singleton] at member
    exact member

theorem insertBackfilled_kept {id : Nat} {row : Backfill.KnowledgeRow} (member : entry ∈ entries) :
    entry ∈ insertBackfilled id row entries := by
  unfold insertBackfilled
  split
  · exact member
  · exact List.mem_append_left _ member

theorem consistent_backfill (consistent : Consistent state)
    (row : Backfill.KnowledgeRow) : Consistent (backfill state row) where
  held := consistent.held
  locked := consistent.locked
  found := by
    intro call running id runs finds
    rcases consistent.found call running id runs finds with ⟨entry, member, named⟩
    exact ⟨entry, insertBackfilled_kept member, named⟩
  keyed := consistent.keyed
  counted := consistent.counted

theorem consistent_locked (consistent : Consistent state)
    (begun : state.calls call = some ⟨operation, .begun⟩)
    (free : state.candidateLocks candidateId = none)
    (found : state.candidates candidateId = some candidate)
    (isOpen : candidate.status.isOpen = true) :
    Consistent { state.setStage call operation (.locked candidate) with
      candidateLocks := update state.candidateLocks candidateId (some call) } := by
  have named := (consistent.keyed candidateId candidate found).1
  have holds := @heldBy_update state { state.setStage call operation (.locked candidate) with
      candidateLocks := update state.candidateLocks candidateId (some call) }
    call ⟨operation, .locked candidate⟩ rfl
  constructor
  · intro other held holding
    rw [holds] at holding
    by_cases same : other = call
    · rw [if_pos same] at holding
      cases holding
      subst same
      dsimp only
      rw [named]
      exact ⟨update_self _ _ _, found, isOpen⟩
    · rw [if_neg same] at holding
      rcases consistent.held other held holding with ⟨locked, rest⟩
      refine ⟨?_, rest⟩
      have apart : held.id ≠ candidateId := by
        intro here
        rw [here, free] at locked
        cases locked
      exact (update_of_ne apart _ _).trans locked
  · intro row other locked
    rw [holds]
    by_cases same : row = candidateId
    · subst same
      have here := (update_self _ _ _).symm.trans locked
      cases here
      exact ⟨candidate, if_pos rfl, named⟩
    · have before := (update_of_ne same _ _).symm.trans locked
      rcases consistent.locked row other before with ⟨held, holding, rest⟩
      refine ⟨held, ?_, rest⟩
      by_cases itself : other = call
      · subst itself
        rw [heldBy_eq begun] at holding
        cases holding
      · rw [if_neg itself]
        exact holding
  · exact found_update consistent rfl (duplicate_none rfl) fun entry member => ⟨entry, member, rfl⟩
  · exact consistent.keyed
  · exact consistent.counted

theorem releaseLocks_eq {other row : Nat} {locks : Nat -> Option Nat} :
    releaseLocks call locks row = some other <-> locks row = some other ∧ other ≠ call := by
  unfold releaseLocks
  by_cases own : locks row = some call
  · rw [if_pos own, own]
    constructor
    · intro impossible
      cases impossible
    · rintro ⟨same, apart⟩
      cases same
      exact absurd rfl apart
  · rw [if_neg own]
    constructor
    · intro locked
      refine ⟨locked, ?_⟩
      intro same
      exact own (same ▸ locked)
    · exact And.left

theorem consistent_release (consistent : Consistent state)
    (calls : next.calls = update state.calls call (some running))
    (ended : running.stage.ended = true)
    (locks : next.candidateLocks = releaseLocks call state.candidateLocks)
    (others : ∀ row, state.candidateLocks row ≠ some call ->
      next.candidates row = state.candidates row)
    (keyed : ∀ candidateId candidate, next.candidates candidateId = some candidate ->
      candidate.id = candidateId ∧ candidateId < next.nextCandidate)
    (counted : ∀ candidateId, next.promotions candidateId ≠ 0 ->
      next.candidates candidateId ≠ none) (kept : ∀ entry ∈ state.entries,
      ∃ after ∈ next.entries, after.id = entry.id) : Consistent next := by
  have holdsNone : running.stage.holds = none ∧ running.stage.duplicate = none := by
    generalize running.stage = stage at ended
    cases stage <;> first | exact ⟨rfl, rfl⟩ | cases ended
  have holds := heldBy_update calls
  constructor
  · intro other candidate held
    rw [holds] at held
    by_cases same : other = call
    · rw [if_pos same, holdsNone.1] at held
      cases held
    · rw [if_neg same] at held
      rcases consistent.held other candidate held with ⟨locked, found, isOpen⟩
      refine ⟨?_, ?_, isOpen⟩
      · rw [locks]
        exact releaseLocks_eq.mpr ⟨locked, same⟩
      · rw [others candidate.id, found]
        rw [locked]
        intro own
        cases own
        exact same rfl
  · intro row other locked
    rw [locks] at locked
    rcases releaseLocks_eq.mp locked with ⟨before, apart⟩
    rw [holds, if_neg apart]
    exact consistent.locked row other before
  · exact found_update consistent calls (duplicate_none holdsNone.2) kept
  · exact keyed
  · exact counted

variable {older : Nat}

theorem supersede_kept {newer : Nat} (member : entry ∈ entries) :
    ∃ after ∈ supersede older newer entries, after.id = entry.id := by
  refine ⟨_, mem_supersede.mpr ⟨entry, member, rfl⟩, ?_⟩
  split <;> rfl

theorem commitPromotion_promotions (candidateId : Nat) :
    (commitPromotion state call operation reviewer candidate entryId embedding
        duplicate).promotions candidateId =
      state.promotions candidateId + if candidate.id = candidateId then 1 else 0 := by
  have reads : ReviewAudit.promotes candidateId (.promote reviewer entryId candidate.projectId
      candidate.id candidate.proposedCategory duplicate) = (candidate.id == candidateId) := rfl
  unfold ReviewState.promotions commitPromotion
  dsimp only
  rw [List.countP_append, List.countP_singleton, reads]
  simp only [beq_iff_eq]

theorem consistent_commit (consistent : Consistent state) (ready : state.calls call =
      some ⟨.approve candidateId reviewer, .linked candidate entryId embedding duplicate⟩) :
    Consistent (commitPromotion state call (.approve candidateId reviewer) reviewer candidate entryId
      embedding duplicate) := by
  rcases consistent.held call candidate (heldBy_eq ready) with ⟨locked, found, isOpen⟩
  refine consistent_release consistent rfl rfl rfl ?_ ?_ ?_ ?_
  · intro row free
    refine update_of_ne ?_ _ _
    intro same
    exact free (same ▸ locked)
  · intro row other here
    by_cases same : row = candidate.id
    · subst same
      cases (update_self _ _ _).symm.trans here
      exact ⟨rfl, (consistent.keyed _ candidate found).2⟩
    · exact consistent.keyed row other ((update_of_ne same _ _).symm.trans here)
  · intro row promoted missing
    rw [commitPromotion_promotions] at promoted
    by_cases same : row = candidate.id
    · subst same
      cases (update_self _ _ _).symm.trans missing
    · rw [if_neg fun equal => same equal.symm, Nat.add_zero] at promoted
      exact consistent.counted row promoted ((update_of_ne same _ _).symm.trans missing)
  · intro old member
    cases duplicate with
    | none => exact ⟨old, List.mem_append_left _ member, rfl⟩
    | some older =>
      rcases supersede_kept member with ⟨after, later, same⟩
      exact ⟨after, List.mem_append_left _ later, same⟩

theorem consistent_rollback (consistent : Consistent state) (error : PyError) :
    Consistent (rollback state call running error) :=
  consistent_release consistent rfl rfl rfl (fun _ _ => rfl) consistent.keyed consistent.counted
    fun entry member => ⟨entry, member, rfl⟩

theorem decision_id
    (decision : operation.decision = some (candidateId, change)) (candidate : PromotionCandidate) :
    (change candidate).id = candidate.id := by
  cases operation with
  | approve => cases decision
  | reject => cases decision; rfl
  | needsEdit => cases decision; rfl

variable {projectId : UUID}

theorem consistent_decided (consistent : Consistent state)
    (ready : state.calls call = some ⟨operation, .selected projectId⟩)
    (decision : operation.decision = some (candidateId, change))
    (free : state.candidateLocks candidateId = none) :
    Consistent { state.setStage call operation (.updated projectId) with
      candidates := update state.candidates candidateId
        ((state.candidates candidateId).map change) } := by
  have holds := @heldBy_update state { state.setStage call operation (.updated projectId) with
      candidates := update state.candidates candidateId
        ((state.candidates candidateId).map change) } call ⟨operation, .updated projectId⟩ rfl
  have same_ : ∀ other, (if other = call then none else state.heldBy other) =
      state.heldBy other := by
    intro other
    by_cases same : other = call
    · rw [if_pos same, same, heldBy_eq ready]
      rfl
    · rw [if_neg same]
  constructor
  · intro other held holding
    rw [holds] at holding
    rcases consistent.held other held ((same_ other).symm.trans holding) with ⟨locked, found, isOpen⟩
    refine ⟨locked, ?_, isOpen⟩
    have apart : held.id ≠ candidateId := by
      intro here
      rw [here, free] at locked
      cases locked
    exact (update_of_ne apart _ _).trans found
  · intro row other locked
    rw [holds]
    rcases consistent.locked row other locked with ⟨held, holding, named⟩
    exact ⟨held, (same_ other).trans holding, named⟩
  · exact found_update consistent rfl (duplicate_none rfl) fun entry member => ⟨entry, member, rfl⟩
  · intro row other here
    by_cases same : row = candidateId
    · subst same
      have changed := (update_self _ _ _).symm.trans here
      rcases Option.map_eq_some_iff.mp changed with ⟨before, found, after⟩
      rw [← after, decision_id decision]
      exact consistent.keyed row before found
    · exact consistent.keyed row other ((update_of_ne same _ _).symm.trans here)
  · intro row promoted missing
    refine consistent.counted row promoted ?_
    by_cases same : row = candidateId
    · subst same
      exact Option.map_eq_none_iff.mp
        ((update_self row _ state.candidates).symm.trans missing)
    · exact (update_of_ne same _ _).symm.trans missing

theorem consistent_step (consistent : Consistent state)
    (input : ReviewInput) : Consistent (reviewStep distance state input) := by
  have changes : Changes state input (reviewStep distance state input) :=
    reviewStep_changes consistent input
  generalize reviewStep distance state input = next at changes
  cases changes with
  | idle => exact consistent
  | enqueued candidate => exact consistent_enqueue consistent candidate
  | backfilled => exact consistent_backfill consistent _
  | moved _ call running _ moves => exact consistent_moves consistent moves
  | locked call candidateId operation candidate begun free found isOpen =>
    exact consistent_locked consistent begun free found isOpen
  | committed call candidateId reviewer candidate entryId embedding duplicate ready =>
    exact consistent_commit consistent ready
  | decided call candidateId operation projectId change ready decision free =>
    exact consistent_decided consistent ready decision free
  | rolledBack call running error runs => exact consistent_rollback consistent error

theorem consistent_initial : Consistent {} := by
  constructor
  · intro call candidate held
    cases held
  · intro candidateId call locked
    cases locked
  · intro call running id runs
    cases runs
  · intro candidateId candidate found
    cases found
  · intro candidateId promoted
    exact absurd rfl promoted

/-! ## Runs which respect the decisions -/

structure Settled (state : ReviewState) : Prop where
  approved : ∀ candidateId, state.promotions candidateId ≠ 0 -> ∃ candidate,
    state.candidates candidateId = some candidate ∧ candidate.status = .approved
  once : ∀ candidateId, state.promotions candidateId ≤ 1
  later : ∀ older newer, SupersededBy state.entries older newer -> older < newer

theorem Settled.orderly (settled : Settled state) : Orderly state where
  __ := settled
  unpromoted := by
    intro candidateId candidate found rejected
    by_contra promoted
    rcases settled.approved candidateId promoted with ⟨other, same, approved⟩
    rw [found] at same
    cases same
    rw [rejected] at approved
    cases approved
  acyclic := by
    intro id cycle
    have ascends : ∀ first last,
        Relation.TransGen (SupersededBy state.entries) first last -> first < last := by
      intro first last path
      induction path with
      | single link => exact settled.later _ _ link
      | tail path link ih => exact Nat.lt_trans ih (settled.later _ _ link)
    exact Nat.lt_irrefl id (ascends id id cycle)

theorem Settled.unchanged (settled : Settled state)
    (candidates : next.candidates = state.candidates) (promotions : next.promotions = state.promotions)
    (entries : next.entries = state.entries) : Settled next := by
  constructor
  · rw [candidates, promotions]
    exact settled.approved
  · rw [promotions]
    exact settled.once
  · rw [entries]
    exact settled.later

theorem settled_enqueue (consistent : Consistent state)
    (settled : Settled state) (extracted : ExtractedCandidate) :
    Settled (enqueue state extracted) := by
  have same_ : (enqueue state extracted).promotions = state.promotions := by
    funext candidateId
    unfold ReviewState.promotions enqueue
    dsimp only
    rw [List.countP_append]
    rfl
  constructor
  · intro candidateId promoted
    rw [same_] at promoted
    rcases settled.approved candidateId promoted with ⟨candidate, found, approved⟩
    refine ⟨candidate, ?_, approved⟩
    have apart := Nat.ne_of_lt (consistent.keyed candidateId candidate found).2
    exact (update_of_ne apart _ _).trans found
  · rw [same_]
    exact settled.once
  · exact settled.later

theorem settled_backfill (settled : Settled state)
    (row : Backfill.KnowledgeRow) : Settled (backfill state row) where
  approved := settled.approved
  once := settled.once
  later := by
    rintro older newer ⟨entry, member, named, points⟩
    rcases mem_insertBackfilled member with old | new
    · exact settled.later older newer ⟨entry, old, named, points⟩
    · rw [new] at points
      cases points

theorem supersededBy_supersede {newer first last : Nat}
    (points : SupersededBy (supersede older newer entries) first last) :
    SupersededBy entries first last ∨ first = older ∧ last = newer := by
  rcases points with ⟨entry, member, named, link⟩
  rcases mem_supersede.mp member with ⟨before, old, same⟩
  by_cases here : before.id = older
  · rw [if_pos here] at same
    subst same
    cases link
    exact .inr ⟨named.symm.trans here, rfl⟩
  · rw [if_neg here] at same
    subst same
    exact .inl ⟨before, old, named, link⟩

theorem settled_commit (consistent : Consistent state) (settled : Settled state)
    (ready : state.calls call =
      some ⟨.approve candidateId reviewer, .linked candidate entryId embedding duplicate⟩)
    (ordered : ∀ older, duplicate = some older -> older < entryId) :
    Settled (commitPromotion state call (.approve candidateId reviewer) reviewer candidate entryId
      embedding duplicate) := by
  rcases consistent.held call candidate (heldBy_eq ready) with ⟨_, found, isOpen⟩
  have unpromoted : state.promotions candidate.id = 0 := by
    by_contra promoted
    rcases settled.approved _ promoted with ⟨other, same, approved⟩
    rw [found] at same
    cases same
    rw [approved] at isOpen
    cases isOpen
  constructor
  · intro row promoted
    by_cases same : row = candidate.id
    · subst same
      exact ⟨_, update_self _ _ _, rfl⟩
    · rw [commitPromotion_promotions, if_neg fun equal => same equal.symm, Nat.add_zero] at promoted
      rcases settled.approved row promoted with ⟨other, here, approved⟩
      exact ⟨other, (update_of_ne same _ _).trans here, approved⟩
  · intro row
    rw [commitPromotion_promotions]
    by_cases same : candidate.id = row
    · rw [if_pos same, ← same, unpromoted]
    · rw [if_neg same]
      exact settled.once row
  · rintro first last ⟨pointing, member, named, link⟩
    rcases List.mem_append.mp member with old | new
    · cases duplicate with
      | none => exact settled.later first last ⟨pointing, old, named, link⟩
      | some older =>
        rcases supersededBy_supersede ⟨pointing, old, named, link⟩ with before | ⟨here, there⟩
        · exact settled.later first last before
        · rw [here, there]
          exact ordered older rfl
    · rw [List.mem_singleton.mp new] at link
      cases link

theorem decided_status (ready : state.calls call = some ⟨operation, .selected projectId⟩)
    (decision : operation.decision = some (candidateId, change))
    (respects : RespectsDecisions state (.advance call))
    (found : state.candidates candidateId = some candidate) : candidate.status ≠ .approved ∧
      (candidate.status.isOpen = false -> (change candidate).status = candidate.status) := by
  have respected := respects call _ rfl ready
  cases operation with
  | approve => cases decision
  | reject =>
    cases decision
    have apart : candidate.status ≠ .approved := respected candidate found
    refine ⟨apart, ?_⟩
    intro closed
    change CandidateStatus.rejected = candidate.status
    generalize candidate.status = status at apart closed
    cases status with
    | rejected => rfl
    | approved => exact absurd rfl apart
    | pending => cases closed
    | needsEdit => cases closed
  | needsEdit =>
    cases decision
    have isOpen : candidate.status.isOpen = true := respected candidate found
    refine ⟨?_, ?_⟩
    · intro approved
      rw [approved] at isOpen
      cases isOpen
    · intro closed
      rw [isOpen] at closed
      cases closed

theorem settled_step {input : ReviewInput} (consistent : Consistent state)
    (settled : Settled state) (respects : RespectsDecisions state input) :
    Settled (reviewStep distance state input) := by
  have changes : Changes state input (reviewStep distance state input) :=
    reviewStep_changes consistent input
  generalize reviewStep distance state input = next at changes
  cases changes with
  | idle => exact settled
  | enqueued candidate => exact settled_enqueue consistent settled candidate
  | backfilled => exact settled_backfill settled _
  | moved _ call running _ moves =>
    exact settled.unchanged moves.candidates moves.promotions moves.entries
  | locked => exact settled.unchanged rfl rfl rfl
  | rolledBack => exact settled.unchanged rfl rfl rfl
  | committed call candidateId reviewer candidate entryId embedding duplicate ready =>
    refine settled_commit consistent settled ready ?_
    intro older same
    subst same
    exact respects call _ rfl ready
  | decided call candidateId operation projectId change ready decision free =>
    refine ⟨?_, settled.once, settled.later⟩
    intro row promoted
    rcases settled.approved row promoted with ⟨candidate, found, approved⟩
    refine ⟨candidate, ?_, approved⟩
    have apart : row ≠ candidateId := by
      intro same
      subst same
      exact (decided_status ready decision respects found).1 approved
    exact (update_of_ne apart _ _).trans found

theorem status_kept {input : ReviewInput} (consistent : Consistent state)
    (respects : RespectsDecisions state input) {status : CandidateStatus}
    (decided : (state.candidates candidateId).map PromotionCandidate.status = some status)
    (closed : status.isOpen = false) :
    ((reviewStep distance state input).candidates candidateId).map PromotionCandidate.status =
      some status := by
  rcases Option.map_eq_some_iff.mp decided with ⟨candidate, found, same_⟩
  subst same_
  have changes : Changes state input (reviewStep distance state input) :=
    reviewStep_changes consistent input
  generalize reviewStep distance state input = next at changes
  cases changes with
  | idle => exact decided
  | enqueued extracted =>
    have apart := Nat.ne_of_lt (consistent.keyed candidateId candidate found).2
    exact (congrArg (Option.map PromotionCandidate.status) (update_of_ne apart _ _)).trans decided
  | backfilled => exact decided
  | moved _ call running _ moves =>
    rw [moves.candidates]
    exact decided
  | locked => exact decided
  | rolledBack => exact decided
  | committed call other reviewer held entryId embedding duplicate ready =>
    rcases consistent.held call held (heldBy_eq ready) with ⟨_, here, isOpen⟩
    have apart : candidateId ≠ held.id := by
      intro same
      subst same
      rw [found] at here
      cases here
      rw [isOpen] at closed
      cases closed
    exact (congrArg (Option.map PromotionCandidate.status) (update_of_ne apart _ _)).trans decided
  | decided call other operation projectId change ready decision free =>
    by_cases same : candidateId = other
    · subst same
      have kept := (decided_status ready decision respects found).2 closed
      refine (congrArg (Option.map PromotionCandidate.status)
        (update_self candidateId _ state.candidates)).trans ?_
      rw [found]
      exact congrArg some kept
    · exact (congrArg (Option.map PromotionCandidate.status) (update_of_ne same _ _)).trans decided

variable (distance)

theorem consistent_after (inputs : List ReviewInput) :
    Consistent ((reviewMachine distance).after inputs) :=
  (reviewMachine distance).invariant_after Consistent consistent_initial
    (fun _ input consistent => consistent_step consistent input) inputs

theorem settled_initial : Settled {} := by
  constructor
  · intro candidateId promoted
    exact absurd rfl promoted
  · intro candidateId
    exact Nat.zero_le 1
  · rintro older newer ⟨entry, member, _⟩
    cases member

variable {inputs : List ReviewInput}

theorem orderly_of_respects
    (respects : (reviewMachine distance).EveryStep RespectsDecisions inputs) :
    (reviewMachine distance).EveryState Orderly inputs := by
  have settled := (reviewMachine distance).guarded_everyState
    (fun state => Consistent state ∧ Settled state) RespectsDecisions
    ⟨consistent_initial, settled_initial⟩
    (fun state input holds respects =>
      ⟨consistent_step holds.1 input, settled_step holds.1 holds.2 respects⟩) inputs respects
  exact fun before rest split => (settled before rest split).2.orderly

theorem decisionsKept_of_respects
    (respects : (reviewMachine distance).EveryStep RespectsDecisions inputs) :
    DecisionsKept distance inputs := by
  intro before between rest split candidateId candidate found closed
  have decided := congrArg (Option.map PromotionCandidate.status) found
  induction between using List.reverseRecOn generalizing rest with
  | nil =>
    rw [List.append_nil]
    exact decided
  | append_singleton earlier input ih =>
    have same : inputs = before ++ earlier ++ input :: rest := by
      rw [split]
      simp only [List.append_assoc, List.singleton_append]
    have kept := ih (input :: rest) same
    rw [← List.append_assoc, Machine.after_append_singleton]
    exact status_kept (consistent_after distance _) (respects _ input rest same) kept closed

theorem decided_free (consistent : Consistent state)
    (found : state.candidates candidateId = some candidate)
    (closed : candidate.status.isOpen = false) : state.candidateLocks candidateId = none := by
  cases locked : state.candidateLocks candidateId with
  | none => rfl
  | some call =>
    rcases consistent.locked candidateId call locked with ⟨held, holding, named⟩
    rcases consistent.held call held holding with ⟨_, same, isOpen⟩
    rw [named, found] at same
    cases same
    rw [isOpen] at closed
    cases closed

theorem change_status (consistent : Consistent state)
    (ready : state.calls call = some ⟨operation, .selected projectId⟩)
    (decision : operation.decision = some (candidateId, change))
    (found : state.candidates candidateId = some candidate)
    (closed : candidate.status.isOpen = false)
    (kept : ((reviewStep distance state (.advance call)).candidates candidateId).map
      PromotionCandidate.status = some candidate.status) :
    (change candidate).status = candidate.status := by
  have stepped : reviewStep distance state (.advance call) =
      updateCandidate state call candidateId operation projectId change := by
    unfold reviewStep
    dsimp only
    rw [ready]
    cases operation with
    | approve => cases decision
    | reject => cases decision; rfl
    | needsEdit => cases decision; rfl
  rw [stepped] at kept
  unfold updateCandidate at kept
  rw [decided_free consistent found closed] at kept
  dsimp only at kept
  rw [update_self, found] at kept
  exact Option.some.inj kept

theorem commitPromotion_points (known : ∃ entry ∈ state.entries, entry.id = older) :
    SupersededBy (commitPromotion state call operation reviewer candidate entryId embedding
      (some older)).entries older entryId := by
  rcases known with ⟨entry, member, named⟩
  refine ⟨{ entry with supersededBy := some entryId }, ?_, named, rfl⟩
  refine List.mem_append_left _ (mem_supersede.mpr ⟨entry, member, ?_⟩)
  rw [if_pos named]

theorem respects_of_sound (sound : ReviewsSound distance inputs) :
    (reviewMachine distance).EveryStep RespectsDecisions inputs := by
  intro before input rest split call running same runs
  subst same
  have consistent := consistent_after distance before
  have longer : inputs = before ++ [.advance call] ++ rest := by
    rw [split, List.append_assoc, List.singleton_append]
  have orderly := sound.2 (before ++ [.advance call]) rest longer
  have kept := sound.1 before [.advance call] rest longer
  rw [Machine.after_append_singleton] at orderly kept
  generalize (reviewMachine distance).after before = state at consistent orderly kept runs ⊢
  change Orderly (reviewStep distance state (.advance call)) at orderly
  rcases running with ⟨operation, stage⟩
  unfold ReviewCall.Respects
  split
  case h_1 candidateId reviewer reason projectId first second =>
    dsimp only at first second
    subst first second
    intro candidate found approved
    have closed : candidate.status.isOpen = false := by rw [approved]; rfl
    have undone := change_status distance consistent runs rfl found closed
      (kept candidateId candidate found closed)
    rw [approved] at undone
    cases undone
  case h_2 candidateId reviewer newBody projectId first second =>
    dsimp only at first second
    subst first second
    intro candidate found
    by_contra notOpen
    have closed := Bool.eq_false_iff.mpr notOpen
    have undone : CandidateStatus.needsEdit = candidate.status :=
      change_status distance consistent runs rfl found closed
        (kept candidateId candidate found closed)
    rw [← undone] at closed
    cases closed
  case h_3 candidateId reviewer candidate entryId embedding older first second =>
    dsimp only at first second
    subst first second
    have stepped : reviewStep distance state (.advance call) =
        commitPromotion state call (.approve candidateId reviewer) reviewer candidate entryId
          embedding (some older) := by
      unfold reviewStep
      dsimp only
      rw [runs]
      rfl
    rw [stepped] at orderly
    exact orderly.later older entryId
      (commitPromotion_points (consistent.found call _ older runs rfl))
  case h_4 => trivial

/-- What the reviewers rely on holds exactly if no rejection reaches an approved
candidate, no edit reaches a decided one, and no approval supersedes a row which was
created after its own. -/
theorem reviewsSound_iff (inputs : List ReviewInput) : ReviewsSound distance inputs <->
      (reviewMachine distance).EveryStep RespectsDecisions inputs := by
  constructor
  · exact respects_of_sound distance
  · intro respects
    exact ⟨decisionsKept_of_respects distance respects, orderly_of_respects distance respects⟩

def brokerNote : ExtractedCandidate where
  proposedTitle := "Restart the broker"
  proposedBody := "Drain the queue first."
  proposedCategory := "howto"
  confidence := 9 / 10
  sources := [⟨"slack_msg", "slack://thread/C042/1718000000.000100", some "1718000000.000100"⟩]
  originalUser := some "U1"
  projectId := 7
  sensitiveFlag := false

/-- A candidate is approved, sent back for an edit, and approved again. -/
def approvedTwice : List ReviewInput :=
  let approval (call : Nat) : List ReviewInput :=
    [.start call (.approve 1 "U-LEAD"), .advance call, .embed call [1], .advance call,
      .advance call, .advance call, .advance call]
  .enqueue brokerNote :: approval 0 ++
    [.start 1 (.needsEdit 1 "U-OTHER" "Drain the queue, then restart."), .advance 1, .advance 1] ++
    approval 2

theorem approvedTwice_unsound : Not (ReviewsSound (fun _ _ => 1) approvedTwice) := by
  intro sound
  have once := (sound.2 approvedTwice [] (List.append_nil _).symm).once 1
  exact absurd once (by decide +kernel)

/-- Two calls never hold one candidate, and a candidate which is held is open and as it is in the table. -/
structure Exclusive (state : ReviewState) : Prop where
  alone : ∀ first second candidate other, state.heldBy first = some candidate ->
    state.heldBy second = some other -> candidate.id = other.id -> first = second
  current : ∀ call candidate, state.heldBy call = some candidate ->
    state.candidates candidate.id = some candidate ∧ candidate.status.isOpen = true

theorem exclusive_always (distance : List Rat -> List Rat -> Rat) (inputs : List ReviewInput) :
    Exclusive ((reviewMachine distance).after inputs) := by
  have consistent := @consistent_after distance inputs
  refine ⟨fun first second candidate other holds too same => ?_, fun call candidate holds => ?_⟩
  · have locked := (consistent.held first candidate holds).1
    rw [same, (consistent.held second other too).1] at locked
    exact (Option.some_inj.mp locked).symm
  · exact (consistent.held call candidate holds).2

end Knowledge
end BreadMind
