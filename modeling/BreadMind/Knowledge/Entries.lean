import BreadMind.Backfill.Runner
import Mathlib.Data.List.Sort

namespace BreadMind
namespace Knowledge

/-!
# The knowledge table and its two writers

Rows come into `org_knowledge` from the backfill runner, which stores an item
unless the project holds a live row for it, and from the review queue, which
promotes a candidate and lets the new row supersede a near duplicate.

The cosine distance of two embeddings is a parameter.
-/

structure CandidateSource where
  sourceType : String
  sourceUri : String
  sourceRef : Option String

inductive CandidateStatus where
  | pending
  | approved
  | rejected
  | needsEdit

structure PromotionCandidate where
  id : Nat
  projectId : UUID
  extractedFrom : String
  originalUser : Option String
  proposedTitle : String
  proposedBody : String
  proposedCategory : String
  sources : List CandidateSource
  confidence : Rat
  status : CandidateStatus
  sensitiveFlag : Bool
  reviewer : Option String

structure KnowledgeEntry where
  id : Nat
  projectId : UUID
  title : String
  body : String
  category : String
  sourceChannel : Option String := none
  embedding : Option (List Rat)
  promotedFrom : Option String := none
  promotedBy : Option String := none
  author : Option String := none
  sourceKind : Option String := none
  sourceNativeId : Option String := none
  sourceCreatedAt : Option Backfill.Timestamp := none
  sourceUpdatedAt : Option Backfill.Timestamp := none
  parentRef : Option String := none
  supersededBy : Option Nat := none
  deriving DecidableEq

structure KnowledgeSource where
  knowledgeId : Nat
  sourceType : String
  sourceUri : String
  sourceRef : Option String

def backfilledEntry (id : Nat) (row : Backfill.KnowledgeRow) : KnowledgeEntry where
  id := id
  projectId := row.projectId
  title := row.title
  body := row.body
  category := row.sourceKind
  embedding := some row.embedding
  author := row.author
  sourceKind := some row.sourceKind
  sourceNativeId := some row.sourceNativeId
  sourceCreatedAt := some row.sourceCreatedAt
  sourceUpdatedAt := some row.sourceUpdatedAt
  parentRef := row.parentRef

/-- The live row of an item, as the partial unique index sees it. -/
def KnowledgeEntry.isLiveFor (entry : KnowledgeEntry) (row : Backfill.KnowledgeRow) : Bool :=
  entry.supersededBy.isNone && entry.projectId == row.projectId &&
    entry.sourceKind == some row.sourceKind && entry.sourceNativeId == some row.sourceNativeId

/-- `ON CONFLICT ... DO NOTHING`. -/
def insertBackfilled (id : Nat) (row : Backfill.KnowledgeRow) (entries : List KnowledgeEntry) :
    List KnowledgeEntry :=
  if entries.any (fun entry => entry.isLiveFor row) then entries
  else entries ++ [backfilledEntry id row]

def promotedEntry (id : Nat) (candidate : PromotionCandidate) (reviewer : String)
    (embedding : List Rat) : KnowledgeEntry where
  id := id
  projectId := candidate.projectId
  title := candidate.proposedTitle
  body := candidate.proposedBody
  category := candidate.proposedCategory
  embedding := some embedding
  promotedFrom := some candidate.extractedFrom
  promotedBy := some reviewer

def promotedSources (id : Nat) (candidate : PromotionCandidate) : List KnowledgeSource :=
  candidate.sources.map fun source =>
    { knowledgeId := id
      sourceType := source.sourceType
      sourceUri := source.sourceUri
      sourceRef := source.sourceRef }

def similarityThreshold : Rat := 22 / 25

/-- The rows which the new one could supersede, each with its distance from it. -/
def nearDuplicates (distance : List Rat -> List Rat -> Rat) (projectId : UUID) (id : Nat)
    (embedding : List Rat) (entries : List KnowledgeEntry) : List (Nat × Rat) :=
  entries.filterMap fun entry =>
    match entry.embedding with
    | some other =>
      if entry.projectId = projectId ∧ entry.id ≠ id ∧ entry.supersededBy = none ∧
          similarityThreshold < 1 - distance other embedding then
        some (entry.id, distance other embedding)
      else none
    | none => none

/-- `ORDER BY embedding <=> $3 LIMIT 1`. -/
def nearestDuplicate (distance : List Rat -> List Rat -> Rat) (projectId : UUID) (id : Nat)
    (embedding : List Rat) (entries : List KnowledgeEntry) : Option Nat :=
  (((nearDuplicates distance projectId id embedding entries).insertionSort
    fun first second => first.2 ≤ second.2).head?).map Prod.fst

def supersede (older newer : Nat) (entries : List KnowledgeEntry) : List KnowledgeEntry :=
  entries.map fun entry =>
    if entry.id = older then { entry with supersededBy := some newer } else entry

theorem nearestDuplicate_mem {distance : List Rat -> List Rat -> Rat} {projectId : UUID}
    {id found : Nat} {embedding : List Rat} {entries : List KnowledgeEntry}
    (nearest : nearestDuplicate distance projectId id embedding entries = some found) :
    ∃ entry ∈ entries, entry.id = found := by
  unfold nearestDuplicate at nearest
  rw [Option.map_eq_some_iff] at nearest
  rcases nearest with ⟨pair, first, same⟩
  have listed := (List.perm_insertionSort _ _).mem_iff.mp (List.mem_of_mem_head? first)
  unfold nearDuplicates at listed
  rw [List.mem_filterMap] at listed
  rcases listed with ⟨entry, member, read⟩
  refine ⟨entry, member, ?_⟩
  cases embedded : entry.embedding with
  | none =>
    rw [embedded] at read
    cases read
  | some other =>
    rw [embedded] at read
    dsimp only at read
    split at read
    · cases read
      exact same
    · cases read

theorem mem_supersede {older newer : Nat} {entries : List KnowledgeEntry} {entry : KnowledgeEntry} :
    entry ∈ supersede older newer entries <-> ∃ before ∈ entries,
        (if before.id = older then { before with supersededBy := some newer } else before) = entry :=
  List.mem_map

end Knowledge
end BreadMind
