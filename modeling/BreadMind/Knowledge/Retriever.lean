import BreadMind.Knowledge.ReviewQueue

namespace BreadMind
namespace Knowledge

open Execution
open Execution.Program

/-!
# Retrieval and its access filters

A search looks for live rows of a project by embedding and by text, fuses the
two rankings, and passes the candidates through two filters: one of its own
and the one of the access resolver.  Both let a row pass when it carries no
channel label or when the user is a member of the channel it is labelled with.

The embedder, the distance of embeddings, the rank of a text match and the
answers of Slack are parameters.  The rows are those which any run of the
backfill runner and the review queue leaves behind.
-/

structure KBHit where
  knowledgeId : Nat
  title : String
  body : String
  score : Rat
  sources : List KnowledgeSource

structure SearchWorld where
  entries : List KnowledgeEntry
  sources : List KnowledgeSource
  -- `org_project_members`
  projectMembers : List (UUID × String)
  encode : String -> Option (List Rat)
  distance : List Rat -> List Rat -> Rat
  -- `ts_rank`, for the rows that match
  textRank : String -> KnowledgeEntry -> Option Rat
  channelMembers : String -> List String
  conversationsMembers : String -> Nat -> Except PyError (List String)

/-- The cache of channel members; a command of the server may fail. -/
structure MembersCache where
  cached : String -> Option (List String)
  getFails : String -> Bool
  setFails : String -> Bool

/-- The state is the cache, where one has been injected. -/
abbrev Searching (Value : Type) := Program (Option MembersCache) PyError Value

def membersLimit : Nat := 1000

def MembersCache.read (cache : MembersCache) (channel : String) : Option (List String) :=
  if cache.getFails channel then none else cache.cached channel

def MembersCache.write (channel : String) (members : List String) (cache : MembersCache) :
    MembersCache :=
  if cache.setFails channel then cache
  else { cache with cached := Function.update cache.cached channel (some members) }

/-- `_channel_members`; when Slack does not answer, nobody is known to be a member. -/
def channelMembers (world : SearchWorld) (channel : String) : Searching (Option (List String)) := do
  let cache <- get
  match cache.bind fun held => held.read channel with
  | some members => pure (some members)
  | none =>
    match world.conversationsMembers channel membersLimit with
    | .error _ => pure none
    | .ok members =>
      modify fun held => held.map (MembersCache.write channel members)
      pure (some members)

def canReadChannel (world : SearchWorld) (userId channel : String) : Searching Bool := do
  let members <- channelMembers world channel
  match members with
  | none => pure false
  | some listed => pure (listed.contains userId)

/-- The loop of both filters over the rows they have selected. -/
def visibleRows (world : SearchWorld) (userId : String) :
    List KnowledgeEntry -> Searching (List Nat)
  | [] => pure []
  | entry :: rest => do
    let readable <- match entry.sourceChannel with
      | none => pure true
      | some channel => canReadChannel world userId channel
    let others <- visibleRows world userId rest
    pure (if readable then entry.id :: others else others)

def userProjects (world : SearchWorld) (userId : String) : List UUID :=
  (world.projectMembers.filter fun row => row.2 == userId).map Prod.fst

def filterKnowledge (world : SearchWorld) (userId : String) (knowledgeIds : List Nat) :
    Searching (List Nat) :=
  if knowledgeIds = [] then pure []
  else
    let projects := userProjects world userId
    if projects = [] then pure []
    else visibleRows world userId (world.entries.filter fun entry =>
      knowledgeIds.contains entry.id && projects.contains entry.projectId)

inductive AclArgument where
  | userId (id : String)
  | projectId (id : UUID)
  | knowledgeIds (ids : List Nat)

def callFilterKnowledge (world : SearchWorld) : List AclArgument -> Searching (List Nat)
  | [.userId userId, .knowledgeIds ids] => filterKnowledge world userId ids
  | arguments => throw (.typeError ("ACLResolver.filter_knowledge() takes 3 positional arguments but "
      ++ toString (arguments.length + 1) ++ " were given"))

def vectorLimit : Nat := 20

def ftsLimit : Nat := 20

def rrfK : Nat := 60

def KnowledgeEntry.isLiveIn (entry : KnowledgeEntry) (projectId : UUID) : Bool :=
  entry.projectId == projectId && entry.supersededBy.isNone

def vectorSearch (world : SearchWorld) (query : String) (projectId : UUID) (limit : Nat) :
    List (Nat × Rat) :=
  match world.encode query with
  | none => []
  | some embedding =>
    let found := (world.entries.filter fun entry => entry.isLiveIn projectId).filterMap
      fun entry => entry.embedding.map fun other => (entry.id, world.distance other embedding)
    ((found.insertionSort fun first second => first.2 ≤ second.2).take limit).map
      fun hit => (hit.1, 1 - hit.2)

def ftsSearch (world : SearchWorld) (query : String) (projectId : UUID) (limit : Nat) :
    List (Nat × Rat) :=
  let found := (world.entries.filter fun entry => entry.isLiveIn projectId).filterMap
    fun entry => (world.textRank query entry).map fun rank => (entry.id, rank)
  (found.insertionSort fun first second => second.2 ≤ first.2).take limit

variable (scores : List (Nat × Rat))

/-- `scores[kid] = scores.get(kid, 0.0) + share`. -/
def addScore (id : Nat) (share : Rat) : List (Nat × Rat) :=
  if scores.any (fun entry => entry.1 == id) then
    scores.map fun entry => if entry.1 = id then (id, entry.2 + share) else entry
  else scores ++ [(id, share)]

def addRanking (hits : List (Nat × Rat)) : List (Nat × Rat) :=
  (hits.zipIdx 1).foldl
    (fun scores ranked => addScore scores ranked.1.1 (1 / ((rrfK + ranked.2 : Nat) : Rat))) scores

/-- `_rrf_fuse`; the sort keeps ties in the order in which they came up. -/
def rrfFuse (vectorHits ftsHits : List (Nat × Rat)) : List (Nat × Rat) :=
  (addRanking (addRanking [] vectorHits) ftsHits).insertionSort
    fun first second => second.2 ≤ first.2

def sqlAclFilter (world : SearchWorld) (userId : String) (projectId : UUID)
    (candidateIds : List Nat) : Searching (List Nat) :=
  if candidateIds = [] then pure []
  else visibleRows world userId (world.entries.filter fun entry =>
    candidateIds.contains entry.id && entry.projectId == projectId)

def loadHits (world : SearchWorld) (ranked : List (Nat × Rat)) : List KBHit :=
  ranked.filterMap fun hit =>
    (world.entries.find? fun entry => entry.id == hit.1).map fun entry =>
      { knowledgeId := hit.1
        title := entry.title
        body := entry.body
        score := hit.2
        sources := world.sources.filter fun source => source.knowledgeId == hit.1 }

def sliceTo {Item : Type} (count : Int) (items : List Item) : List Item :=
  if 0 ≤ count then items.take count.toNat else items.take (items.length - count.natAbs)

/-- The candidates of both searches in fused order. -/
def fusedCandidates (world : SearchWorld) (query : String) (projectId : UUID) : List (Nat × Rat) :=
  rrfFuse (vectorSearch world query projectId vectorLimit) (ftsSearch world query projectId ftsLimit)

/-- `KBRetriever.search`, with the resolver as its collaborator. -/
def search (world : SearchWorld) (query userId : String) (projectId : UUID) (topK : Int) :
    Searching (List KBHit) := do
  let fused := fusedCandidates world query projectId
  if fused = [] then pure []
  else
    let passed <- sqlAclFilter world userId projectId (fused.map Prod.fst)
    let allowed <- callFilterKnowledge world
      [.userId userId, .projectId projectId, .knowledgeIds passed]
    let ranked := sliceTo topK (fused.filter fun hit => allowed.contains hit.1)
    if ranked = [] then pure []
    else pure (loadHits world ranked)

/-- The channel in a thread's URI, `slack://thread/<channel>/<ts>`. -/
def threadChannel (uri : String) : Option String :=
  let start := "slack://thread/".toList
  if start.isPrefixOf uri.toList then
    some (String.ofList ((uri.toList.drop start.length).takeWhile fun letter => letter != '/'))
  else none

/-- The Slack channels a row stems from: the one in the native identifier of a
backfilled message, and the ones of the threads it has been extracted from. -/
def slackChannels (world : SearchWorld) (entry : KnowledgeEntry) : List String :=
  (match entry.sourceKind, entry.sourceNativeId with
    | some "slack_msg", some native =>
      [String.ofList (native.toList.takeWhile fun letter => letter != ':')]
    | _, _ => []) ++
  (world.sources.filter fun source =>
      source.knowledgeId == entry.id && source.sourceType == "slack_msg").filterMap
    fun source => threadChannel source.sourceUri

def mayRead (world : SearchWorld) (userId : String) (entry : KnowledgeEntry) : Bool :=
  world.projectMembers.contains (entry.projectId, userId) &&
    (slackChannels world entry).all fun channel => (world.channelMembers channel).contains userId

/-- The search returns, in fused order, the first of the candidates which the
user may read. -/
def ReturnsReadable (world : SearchWorld) (cache : Option MembersCache) (query userId : String)
    (projectId : UUID) (topK : Int) : Prop :=
  ∃ hits, ((search world query userId projectId topK).run.run cache).1 = .ok hits ∧
    hits.map KBHit.knowledgeId =
      sliceTo topK (((fusedCandidates world query projectId).map Prod.fst).filter fun id =>
        world.entries.any fun entry => entry.id == id && mayRead world userId entry)

/-- Some live row of the project is found, by its embedding or by its text. -/
def Finds (world : SearchWorld) (query : String) (projectId : UUID) : Prop :=
  ∃ entry ∈ world.entries, entry.isLiveIn projectId = true ∧
    ((world.encode query ≠ none ∧ entry.embedding ≠ none) ∨ world.textRank query entry ≠ none)

/-- The rows and sources which a run of the two writers has left. -/
def SearchWorld.holding (world : SearchWorld) (state : ReviewState) : SearchWorld :=
  { world with entries := state.entries, sources := state.sources }

/-! ## When anything is found -/

theorem addScore_ne_nil (id : Nat) (share : Rat) : addScore scores id share ≠ [] := by
  unfold addScore
  split
  case isTrue present =>
    intro empty
    rw [List.map_eq_nil_iff] at empty
    rw [empty] at present
    cases present
  case isFalse => exact List.append_ne_nil_of_right_ne_nil _ (List.cons_ne_nil _ _)

theorem addRanking_eq_nil {scores hits : List (Nat × Rat)} :
    addRanking scores hits = [] <-> scores = [] ∧ hits = [] := by
  have grows : ∀ (ranked : List ((Nat × Rat) × Nat)) (start : List (Nat × Rat)),
      ranked.foldl (fun scores ranked =>
        addScore scores ranked.1.1 (1 / ((rrfK + ranked.2 : Nat) : Rat))) start = [] ->
      start = [] ∧ ranked = [] := by
    intro ranked
    induction ranked with
    | nil =>
      intro start empty
      exact ⟨empty, rfl⟩
    | cons head tail ih =>
      intro start empty
      exact absurd (ih _ empty).1 (addScore_ne_nil _ _ _)
  constructor
  · intro empty
    have parts := grows _ _ empty
    exact ⟨parts.1, List.zipIdx_eq_nil_iff.mp parts.2⟩
  · rintro ⟨rfl, rfl⟩
    rfl

theorem insertionSort_eq_nil {Item : Type} {order : Item -> Item -> Prop} [DecidableRel order]
    {items : List Item} : items.insertionSort order = [] <-> items = [] := by
  have same := List.perm_insertionSort order items
  constructor
  · intro empty
    rw [empty] at same
    exact same.nil_eq.symm
  · rintro rfl
    rfl

theorem rrfFuse_eq_nil {vectorHits ftsHits : List (Nat × Rat)} :
    rrfFuse vectorHits ftsHits = [] <-> vectorHits = [] ∧ ftsHits = [] := by
  unfold rrfFuse
  rw [insertionSort_eq_nil, addRanking_eq_nil, addRanking_eq_nil]
  exact and_congr_left fun _ => and_iff_right rfl

theorem take_eq_nil {Item : Type} {limit : Nat} {items : List Item} (positive : limit ≠ 0) :
    items.take limit = [] <-> items = [] := by
  rw [List.take_eq_nil_iff]
  exact or_iff_right positive

variable {world : SearchWorld} {query : String} {projectId : UUID}

theorem vectorSearch_eq_nil : vectorSearch world query projectId vectorLimit = [] <->
      ∀ entry ∈ world.entries, entry.isLiveIn projectId = true ->
        Not (world.encode query ≠ none ∧ entry.embedding ≠ none) := by
  unfold vectorSearch
  cases encoded : world.encode query with
  | none =>
    refine iff_of_true rfl ?_
    rintro entry _ _ ⟨impossible, _⟩
    exact impossible rfl
  | some embedding =>
    dsimp only
    rw [List.map_eq_nil_iff, take_eq_nil (by decide), insertionSort_eq_nil,
      List.filterMap_eq_nil_iff]
    constructor
    · rintro empty entry member live ⟨_, embedded⟩
      have none_ := empty entry (List.mem_filter.mpr ⟨member, live⟩)
      exact embedded (Option.map_eq_none_iff.mp none_)
    · intro none_ entry member
      rcases List.mem_filter.mp member with ⟨here, live⟩
      rw [Option.map_eq_none_iff]
      by_contra embedded
      exact none_ entry here live ⟨Option.some_ne_none _, embedded⟩

theorem ftsSearch_eq_nil : ftsSearch world query projectId ftsLimit = [] <->
      ∀ entry ∈ world.entries, entry.isLiveIn projectId = true ->
        world.textRank query entry = none := by
  unfold ftsSearch
  dsimp only
  rw [take_eq_nil (by decide), insertionSort_eq_nil, List.filterMap_eq_nil_iff]
  constructor
  · intro empty entry member live
    exact Option.map_eq_none_iff.mp (empty entry (List.mem_filter.mpr ⟨member, live⟩))
  · intro none_ entry member
    rcases List.mem_filter.mp member with ⟨here, live⟩
    exact Option.map_eq_none_iff.mpr (none_ entry here live)

theorem fusedCandidates_eq_nil :
    fusedCandidates world query projectId = [] <-> Not (Finds world query projectId) := by
  unfold fusedCandidates
  rw [rrfFuse_eq_nil, vectorSearch_eq_nil, ftsSearch_eq_nil]
  constructor
  · rintro ⟨noVector, noText⟩ ⟨entry, member, live, byVector | byText⟩
    · exact noVector entry member live byVector
    · exact byText (noText entry member live)
  · intro nothing
    constructor
    · intro entry member live byVector
      exact nothing ⟨entry, member, live, .inl byVector⟩
    · intro entry member live
      by_contra byText
      exact nothing ⟨entry, member, live, .inr byText⟩

/-! ## The searches which return -/

theorem search_raises {world : SearchWorld} {query userId : String} {projectId : UUID} {topK : Int}
    (found : fusedCandidates world query projectId ≠ []) :
    Ensures (fun _ => True) (search world query userId projectId topK) (fun _ _ => False)
      (fun _ _ => True) := by
  unfold search
  dsimp only
  rw [if_neg found]
  refine ensures_bind (fun _ _ => True) ?_ ?_
  · intro cache _
    generalize (sqlAclFilter world userId projectId _).run.run cache = outcome
    rcases outcome with ⟨result, after⟩
    cases result <;> trivial
  · intro passed
    refine ensures_bind (fun _ _ => False) ?_ ?_
    · exact ensures_throw fun _ _ => trivial
    · intro allowed cache impossible
      exact impossible.elim

theorem search_empty {cache : Option MembersCache} {userId : String}
    {topK : Int} (none_ : fusedCandidates world query projectId = []) :
    (search world query userId projectId topK).run.run cache = (.ok [], cache) := by
  unfold search
  dsimp only
  rw [if_pos none_]
  rfl

theorem sliceTo_nil {Item : Type} (count : Int) : sliceTo count ([] : List Item) = [] := by
  unfold sliceTo
  rw [List.take_nil, List.take_nil, ite_self]

theorem unreadable_of_found {cache : Option MembersCache} {userId : String} {topK : Int}
    (found : fusedCandidates world query projectId ≠ []) :
    Not (ReturnsReadable world cache query userId projectId topK) := by
  rintro ⟨hits, returned, _⟩
  have raises := @search_raises world query userId projectId topK found cache trivial
  generalize (search world query userId projectId topK).run.run cache = outcome at returned raises
  rcases outcome with ⟨result, after⟩
  cases returned
  exact raises

/-- On whatever the two writers have left, a search returns what the user may
read exactly if there is nothing to be found. -/
theorem search_iff (distance : List Rat -> List Rat -> Rat) (inputs : List ReviewInput)
    (world : SearchWorld) (cache : Option MembersCache) (query userId : String) (projectId : UUID)
    (topK : Int) :
    ReturnsReadable (world.holding ((reviewMachine distance).after inputs)) cache query userId
        projectId topK <->
      Not (Finds (world.holding ((reviewMachine distance).after inputs)) query projectId) := by
  generalize world.holding ((reviewMachine distance).after inputs) = world
  rw [← fusedCandidates_eq_nil]
  constructor
  · intro returns
    by_contra found
    exact unreadable_of_found found returns
  · intro none_
    refine ⟨[], ?_, ?_⟩
    · rw [search_empty none_]
    · rw [none_]
      exact (sliceTo_nil topK).symm

/-- One candidate is approved, and a member of its project and of its channel
asks for it by its title. -/
def promotedOnce : List ReviewInput :=
  [.enqueue brokerNote,
    .start 0 (.approve 1 "U-LEAD"), .advance 0, .embed 0 [1], .advance 0, .advance 0, .advance 0,
    .advance 0]

def memberWorld : SearchWorld where
  entries := []
  sources := []
  projectMembers := [(7, "U1")]
  encode := fun _ => none
  distance := fun _ _ => 1
  textRank := fun query entry => if entry.title = query then some 1 else none
  channelMembers := fun _ => ["U1"]
  conversationsMembers := fun _ _ => .ok ["U1"]

theorem memberWorld_refused : Not (ReturnsReadable
    (memberWorld.holding ((reviewMachine fun _ _ => 1).after promotedOnce)) none
    "Restart the broker" "U1" 7 5) := by
  refine unreadable_of_found ?_
  rw [Ne, fusedCandidates_eq_nil, not_not]
  refine ⟨promotedEntry 1 (candidateOf 1 brokerNote) "U-LEAD" [1], ?_, ?_, Or.inr ?_⟩
  · decide +kernel
  · decide
  · decide

end Knowledge
end BreadMind
