import BreadMind.Base.Values
import BreadMind.Execution.Programs
import Mathlib.Data.String.Basic

namespace BreadMind
namespace Knowledge

open Execution
open Execution.Program

/-!
# The Confluence connector and its cursor

A sync walks through the pages the server returns for the old cursor, feeds
each one to the extractor and the review queue, and moves the cursor up to the
greatest version stamp it has come across.  Stamps are compared as strings.  A
page that fails is counted and left behind, and a page for which there is no
budget ends the walk.

What the collaborators answer is given with the page they are asked about.
-/

def digits? (text : List Char) : Option Nat :=
  if text.all Char.isDigit ∧ text ≠ [] then
    some (text.foldl (fun value digit => 10 * value + (digit.toNat - '0'.toNat)) 0)
  else none

/-- Days since the epoch of a date in the Gregorian calendar. -/
def daysFromCivil (year month day : Nat) : Int :=
  let shifted : Int := if month ≤ 2 then (year : Int) - 1 else year
  let monthIndex : Int := if month ≤ 2 then (month : Int) + 9 else (month : Int) - 3
  365 * shifted + shifted / 4 - shifted / 100 + shifted / 400 +
    (153 * monthIndex + 2) / 5 + (day : Int) - 1 - 719468

/-- Seconds of the offset at the end of a stamp. -/
def offset? : List Char -> Option Int
  | [] => some 0
  | ['Z'] => some 0
  | sign :: hours1 :: hours2 :: rest => do
    let minutes <- match rest with
      | [':', minutes1, minutes2] => digits? [minutes1, minutes2]
      | [minutes1, minutes2] => digits? [minutes1, minutes2]
      | [] => some 0
      | _ => none
    let hours <- digits? [hours1, hours2]
    match sign with
    | '+' => some (3600 * (hours : Int) + 60 * minutes)
    | '-' => some (-(3600 * (hours : Int) + 60 * minutes))
    | _ => none
  | _ => none

/-- Microseconds of a fraction, and what comes after it. -/
def fraction? : List Char -> Option (Nat × List Char)
  | '.' :: rest => do
    let shown := rest.takeWhile Char.isDigit
    let value <- digits? ((shown ++ List.replicate 6 '0').take 6)
    some (value, rest.dropWhile Char.isDigit)
  | rest => some (0, rest)

/-- The instant, in microseconds, that an ISO stamp names. -/
def instant (stamp : String) : Option Int :=
  match stamp.toList with
  | y1 :: y2 :: y3 :: y4 :: '-' :: m1 :: m2 :: '-' :: d1 :: d2 :: _ :: h1 :: h2 :: ':' ::
      i1 :: i2 :: ':' :: s1 :: s2 :: rest => do
      let year <- digits? [y1, y2, y3, y4]
      let month <- digits? [m1, m2]
      let day <- digits? [d1, d2]
      let hours <- digits? [h1, h2]
      let minutes <- digits? [i1, i2]
      let seconds <- digits? [s1, s2]
      let (micros, zone) <- fraction? rest
      let offset <- offset? zone
      some (1000000 * (86400 * daysFromCivil year month day +
        (3600 * (hours : Int) + 60 * minutes + seconds) - offset) + micros)
  | _ => none

example : instant "1970-01-02T09:00:00.5+09:00" = some 86400500000 := by decide

def NotLater (first second : String) : Prop :=
  ∃ early late,
    instant first = some early ∧ instant second = some late ∧ early ≤ late

structure ConfluencePage where
  id : String
  title : String
  spaceKey : String
  webUrl : String
  storageHtml : String
  versionWhen : String

/-- What the extractor answers for one chunk of a page, each candidate with
the answer of the review queue. -/
abbrev ChunkAnswer (Candidate : Type) := Except PyError (List (Candidate × Option PyError))

inductive BudgetAnswer where
  | granted
  | exceeded (detail : String)
  | raised (error : PyError)

structure Delivery (Candidate : Type) where
  page : ConfluencePage
  budget : BudgetAnswer
  chunks : List (ChunkAnswer Candidate)

/-- The pages the server returns for a cursor, and what it raises after them. -/
structure PageStream (Candidate : Type) where
  deliveries : List (Delivery Candidate)
  ending : Option PyError

/-- The candidates for retirement, with the answers of the review queue, and
what the scan for them raises at its end. -/
structure Retirements (Candidate : Type) where
  candidates : List (Candidate × Option PyError)
  ending : Option PyError

structure SyncResult where
  newCursor : String
  processed : Nat
  errors : Nat

inductive SyncStatus where
  | ok
  | error

structure ConnectorSyncState where
  projectId : UUID
  lastCursor : Option String
  lastStatus : SyncStatus
  lastError : Option String

inductive ConnectorError where
  | budgetExceeded (scopeKey detail : String)
  | pageFailed (scopeKey pageId detail : String)

/-- The state around a sync.  `handled` collects the pages which have been
processed without an error, over all syncs. -/
structure SyncState (Candidate : Type) where
  row : Option ConnectorSyncState
  queue : List Candidate
  handled : List ConfluencePage
  auditLog : List ConnectorError
  processed : Nat := 0
  errors : Nat := 0
  maxWhen : String := ""

abbrev Syncing (Candidate Value : Type) := Program (SyncState Candidate) PyError Value

variable {Candidate : Type}

def enqueueAll : List (Candidate × Option PyError) -> Syncing Candidate PUnit
  | [] => pure ⟨⟩
  | (_, some error) :: _ => throw error
  | (candidate, none) :: rest => do
    modify fun state => { state with queue := state.queue ++ [candidate] }
    enqueueAll rest

def feedChunks : List (ChunkAnswer Candidate) -> Syncing Candidate PUnit
  | [] => pure ⟨⟩
  | chunk :: rest => do
    let candidates <- Program.ofExcept chunk
    enqueueAll candidates
    feedChunks rest

def feedPage (scopeKey : String) (delivery : Delivery Candidate) : Syncing Candidate PUnit :=
  tryCatch
    (do
      feedChunks delivery.chunks
      modify fun state => { state with
        processed := state.processed + 1, handled := state.handled ++ [delivery.page] })
    fun error => modify fun state => { state with
      errors := state.errors + 1
      auditLog := state.auditLog ++ [.pageFailed scopeKey delivery.page.id error.text] }

/-- `if page.version_when and page.version_when > max_when`. -/
def advance (page : ConfluencePage) : Syncing Candidate PUnit :=
  modify fun state =>
    if page.versionWhen ≠ "" ∧ state.maxWhen < page.versionWhen then
      { state with maxWhen := page.versionWhen }
    else state

def walk (scopeKey : String) (ending : Option PyError) :
    List (Delivery Candidate) -> Syncing Candidate PUnit
  | [] =>
    match ending with
    | some error => throw error
    | none => pure ⟨⟩
  | delivery :: rest =>
    match delivery.budget with
    | .raised error => throw error
    | .exceeded detail => modify fun state => { state with
        auditLog := state.auditLog ++ [.budgetExceeded scopeKey detail] }
    | .granted => do
      feedPage scopeKey delivery
      advance delivery.page
      walk scopeKey ending rest

def scanRetirements (retirements : Retirements Candidate) : Syncing Candidate PUnit := do
  enqueueAll retirements.candidates
  match retirements.ending with
  | some error => throw error
  | none => pure ⟨⟩

def doSync (scopeKey : String) (cursor : Option String) (stream : PageStream Candidate)
    (retirements : Retirements Candidate) : Syncing Candidate SyncResult := do
  modify fun state => { state with processed := 0, errors := 0, maxWhen := cursor.getD "" }
  walk scopeKey stream.ending stream.deliveries
  scanRetirements retirements
  let state <- get
  pure
    { newCursor := if state.maxWhen ≠ "" then state.maxWhen else cursor.getD ""
      processed := state.processed
      errors := state.errors }

variable (projectId : UUID)

def persistState (cursor : Option String) (status : SyncStatus)
    (error : Option String) : Syncing Candidate PUnit :=
  modify fun state => { state with
    row := some
      { projectId := projectId, lastCursor := cursor, lastStatus := status, lastError := error } }

def sync (scopeKey : String) (cursor : Option String)
    (stream : PageStream Candidate) (retirements : Retirements Candidate) :
    Syncing Candidate SyncResult := do
  let result <- tryCatch (doSync scopeKey cursor stream retirements) fun error => do
    persistState projectId cursor .error (some (error.typeName ++ ": " ++ error.text))
    throw error
  persistState projectId (some result.newCursor) .ok none
  pure result

/-! ## What a sync takes -/

def Delivery.granted (delivery : Delivery Candidate) : Bool :=
  match delivery.budget with
  | .granted => true
  | _ => false

def accepted (candidates : List (Candidate × Option PyError)) : Bool :=
  candidates.all fun candidate => candidate.2.isNone

def chunkSucceeds : ChunkAnswer Candidate -> Bool
  | .error _ => false
  | .ok candidates => accepted candidates

def Delivery.succeeds (delivery : Delivery Candidate) : Bool :=
  delivery.chunks.all chunkSucceeds

def taken (deliveries : List (Delivery Candidate)) : List (Delivery Candidate) :=
  deliveries.takeWhile Delivery.granted

/-- The stamps among which the new cursor is the greatest. -/
def stamps (cursor : Option String) (deliveries : List (Delivery Candidate)) : List String :=
  cursor.getD "" :: (taken deliveries).map fun delivery => delivery.page.versionWhen

/-- Neither this sync nor an earlier one gets the page done: it fails, or the
budget is used up before it. -/
def LeftBehind (handled : List ConfluencePage) (deliveries : List (Delivery Candidate))
    (page : ConfluencePage) : Prop :=
  page ∉ handled ∧
    ∀ delivery ∈ taken deliveries, delivery.page = page -> delivery.succeeds = false

/-- Every listed page which is left behind is later than the stamp that is, as
a string, the greatest among the pages taken and the old cursor. -/
def CursorStaysBehind (handled : List ConfluencePage) (cursor : Option String)
    (deliveries : List (Delivery Candidate)) : Prop :=
  ∀ delivery ∈ deliveries, LeftBehind handled deliveries delivery.page ->
    ∀ greatest, (stamps cursor deliveries).max? = some greatest ->
      Not (NotLater delivery.page.versionWhen greatest)

variable {raised : PyError -> SyncState Candidate -> Prop} {handled : List ConfluencePage}
variable {maxWhen scopeKey : String} {delivery : Delivery Candidate}

def Standing (handled : List ConfluencePage) (maxWhen : String) (state : SyncState Candidate) :
    Prop :=
  state.handled = handled ∧ state.maxWhen = maxWhen

theorem ensures_enqueueAll (candidates : List (Candidate × Option PyError)) :
    Ensures (Standing handled maxWhen) (enqueueAll candidates)
      (fun _ state => Standing handled maxWhen state ∧ accepted candidates = true)
      (fun _ state => Standing handled maxWhen state ∧ accepted candidates = false) := by
  induction candidates with
  | nil => exact ensures_pure fun state standing => ⟨standing, rfl⟩
  | cons candidate rest rested =>
    obtain ⟨candidate, answer⟩ := candidate
    cases answer with
    | some error => exact ensures_throw fun state standing => ⟨standing, rfl⟩
    | none =>
      exact ensures_bind (fun _ => Standing handled maxWhen) (ensures_modify fun _ standing => standing)
        fun _ => rested

theorem ensures_feedChunks (chunks : List (ChunkAnswer Candidate)) :
    Ensures (Standing handled maxWhen) (feedChunks chunks)
      (fun _ state => Standing handled maxWhen state ∧ chunks.all chunkSucceeds = true)
      (fun _ state => Standing handled maxWhen state ∧ chunks.all chunkSucceeds = false) := by
  induction chunks with
  | nil => exact ensures_pure fun state standing => ⟨standing, rfl⟩
  | cons chunk rest rested =>
    cases chunk with
    | error error => exact ensures_throw fun state standing => ⟨standing, rfl⟩
    | ok candidates =>
      refine ensures_bind (fun given state => Standing handled maxWhen state ∧ given = candidates)
        (fun state standing => ⟨standing, rfl⟩) fun given => ensures_of_fact ?_
      rintro rfl
      refine ensures_bind _ (Ensures.raise (ensures_enqueueAll given) fun _ state refused =>
        ⟨refused.1, ?_⟩) fun _ =>
        ensures_of_fact fun enqueued => Ensures.weaken rested (fun _ standing => standing)
          (fun _ _ ended => ⟨ended.1, ?_⟩) fun _ _ ended => ⟨ended.1, ?_⟩
      · rw [List.all_cons, chunkSucceeds, refused.2, Bool.false_and]
      · rw [List.all_cons, chunkSucceeds, enqueued, ended.2, Bool.and_self]
      · rw [List.all_cons, chunkSucceeds, enqueued, ended.2, Bool.and_false]

theorem ensures_feedPage : Ensures (Standing handled maxWhen) (feedPage scopeKey delivery)
      (fun _ => Standing (handled ++ if delivery.succeeds then [delivery.page] else []) maxWhen)
      raised := by
  refine @ensures_tryCatch _ _ _ _ _ _ _ _ (fun _ state => Standing handled maxWhen state ∧
    delivery.succeeds = false) ?_ fun error => ?_
  · refine ensures_bind _ (ensures_feedChunks delivery.chunks) fun _ => ?_
    refine ensures_modify fun state fed => ⟨?_, fed.1.2⟩
    have succeeds : delivery.succeeds = true := fed.2
    simp only [succeeds, if_true, fed.1.1]
  · refine ensures_modify fun state failed => ⟨?_, failed.1.2⟩
    simp [failed.2, failed.1.1]

theorem empty_le (stamp : String) : "" ≤ stamp := by
  rw [String.le_iff_toList_le, ← not_lt]
  exact List.not_lt_nil _

theorem ensures_advance (page : ConfluencePage) :
    Ensures (Standing handled maxWhen) (advance page : Syncing Candidate PUnit)
      (fun _ => Standing handled (max maxWhen page.versionWhen)) raised := by
  refine ensures_modify fun state standing => ?_
  rw [standing.2]
  split
  case isTrue further => exact ⟨standing.1, (max_eq_right further.2.le).symm⟩
  case isFalse behind =>
    have below : page.versionWhen ≤ maxWhen := by
      by_contra ahead
      refine behind ⟨fun unstamped => ahead ?_, not_le.mp ahead⟩
      rw [unstamped]
      exact empty_le maxWhen
    exact ⟨standing.1, standing.2.trans (max_eq_left below).symm⟩

/-! ## The walk and the sync -/

def done (deliveries : List (Delivery Candidate)) : List ConfluencePage :=
  ((taken deliveries).filter Delivery.succeeds).map Delivery.page

/-- Induction on the pages; a walk ends early, and without an error, when the
budget is used up. -/
theorem ensures_walk (scopeKey : String) (ending : Option PyError)
    (deliveries : List (Delivery Candidate)) : ∀ (handled : List ConfluencePage) (maxWhen : String),
    Ensures (Standing handled maxWhen) (walk scopeKey ending deliveries)
      (fun _ => Standing (handled ++ done deliveries)
        (((taken deliveries).map fun delivery => delivery.page.versionWhen).foldl max maxWhen))
      (fun _ _ => True) := by
  induction deliveries with
  | nil =>
    intro handled maxWhen
    unfold walk
    split
    case h_1 error => exact ensures_throw fun _ _ => trivial
    case h_2 => exact ensures_pure fun state standing => by simpa [done, taken] using standing
  | cons delivery rest walked =>
    intro handled maxWhen
    unfold walk
    split
    case h_1 error refused => exact ensures_throw fun _ _ => trivial
    case h_2 detail exceeded =>
      refine ensures_modify fun state standing => ?_
      have stops : taken (delivery :: rest) = [] := by simp [taken, Delivery.granted, exceeded]
      simpa [done, stops, Standing] using standing
    case h_3 granted =>
      have goesOn : taken (delivery :: rest) = delivery :: taken rest := by
        simp [taken, Delivery.granted, granted]
      have together : done (delivery :: rest) =
          (if delivery.succeeds then [delivery.page] else []) ++ done rest := by
        simp only [done, goesOn, List.filter_cons]
        split <;> rfl
      rw [goesOn, together, List.map_cons, List.foldl_cons, ← List.append_assoc]
      refine ensures_bind _ ensures_feedPage fun _ => ?_
      exact ensures_bind _ (ensures_advance delivery.page) fun _ => walked _ _

theorem ensures_scanRetirements (retirements : Retirements Candidate) :
    Ensures (Standing handled maxWhen) (scanRetirements retirements)
      (fun _ => Standing handled maxWhen) (fun _ _ => True) := by
  refine ensures_bind _ (Ensures.weaken (ensures_enqueueAll retirements.candidates)
    (fun _ standing => standing) (fun _ _ enqueued => enqueued.1) fun _ _ _ => trivial) fun _ => ?_
  split
  case h_1 error => exact ensures_throw fun _ _ => trivial
  case h_2 => exact ensures_pure fun _ standing => standing

/-- What a sync has done when it answers: the pages it took and got done, and a
cursor that is the greatest of their stamps and the old one. -/
def Synced (handled : List ConfluencePage) (cursor : Option String)
    (deliveries : List (Delivery Candidate)) (result : SyncResult) (state : SyncState Candidate) :
    Prop :=
  state.handled = handled ++ done deliveries ∧
    (stamps cursor deliveries).max? = some result.newCursor

theorem ensures_doSync (scopeKey : String) (cursor : Option String) (stream : PageStream Candidate)
    (retirements : Retirements Candidate) :
    Ensures (fun state => state.handled = handled) (doSync scopeKey cursor stream retirements)
      (Synced handled cursor stream.deliveries) (fun _ _ => True) := by
  unfold doSync
  refine ensures_bind (fun _ => Standing handled (cursor.getD ""))
    (ensures_modify fun state same => ⟨same, rfl⟩) fun _ => ?_
  refine ensures_bind _ (ensures_walk scopeKey stream.ending stream.deliveries handled _) fun _ => ?_
  refine ensures_bind _ (ensures_scanRetirements retirements) fun _ => ?_
  refine ensures_bind _ ensures_get fun read => ensures_pure ?_
  rintro _ ⟨standing, rfl⟩
  refine ⟨standing.1, ?_⟩
  have greatest : (stamps cursor stream.deliveries).max? = some read.maxWhen := by
    rw [stamps, List.max?_cons', ← standing.2]
  split
  case isTrue moved => exact greatest
  case isFalse empty =>
    have empty : read.maxWhen = "" := not_not.mp empty
    have below : cursor.getD "" ≤ read.maxWhen :=
      (List.max?_eq_some_iff.mp greatest).2 _ List.mem_cons_self
    rw [greatest, empty, le_antisymm (below.trans_eq empty) (empty_le _)]

theorem mem_handled_iff {handled : List ConfluencePage} {deliveries : List (Delivery Candidate)}
    {page : ConfluencePage} :
    page ∈ handled ++ done deliveries <-> Not (LeftBehind handled deliveries page) := by
  rw [LeftBehind, List.mem_append, not_and_or, not_not]
  refine or_congr Iff.rfl ?_
  simp only [done, List.mem_map, List.mem_filter, not_forall, exists_prop, Bool.not_eq_false]
  constructor
  · rintro ⟨delivery, ⟨among, succeeds⟩, same⟩
    exact ⟨delivery, among, same, succeeds⟩
  · rintro ⟨delivery, among, same, succeeds⟩
    exact ⟨delivery, ⟨among, succeeds⟩, same⟩

theorem ensures_sync (scopeKey : String) (cursor : Option String)
    (stream : PageStream Candidate) (retirements : Retirements Candidate) :
    Ensures (fun state => state.handled = handled)
      (sync projectId scopeKey cursor stream retirements)
      (fun result state => Synced handled cursor stream.deliveries result state ∧
        state.row.bind ConnectorSyncState.lastCursor = some result.newCursor)
      (fun _ state => state.row.bind ConnectorSyncState.lastCursor = cursor) := by
  refine ensures_bind (Synced handled cursor stream.deliveries) ?_ fun result => ?_
  · refine ensures_tryCatch (ensures_doSync scopeKey cursor stream retirements) fun error => ?_
    exact ensures_bind (fun _ state => state.row.bind ConnectorSyncState.lastCursor = cursor)
      (fun state _ => show _ = _ from rfl) fun _ => ensures_throw fun _ persisted => persisted
  · refine ensures_bind (fun _ state => Synced handled cursor stream.deliveries result state ∧
      state.row.bind ConnectorSyncState.lastCursor = some result.newCursor)
      (ensures_modify fun _ synced => ⟨synced, rfl⟩) fun _ => ensures_pure fun _ persisted => persisted

/-- A sync that answers has left no page in front of its new cursor behind
exactly if the pages it leaves behind are all later than what it has taken. -/
theorem sync_iff {projectId : UUID} {scopeKey : String} {cursor : Option String}
    {stream : PageStream Candidate} {retirements : Retirements Candidate}
    {before after : SyncState Candidate} {result : SyncResult}
    (answered : (sync projectId scopeKey cursor stream retirements).run.run before =
      (.ok result, after)) : (∀ delivery ∈ stream.deliveries,
      NotLater delivery.page.versionWhen result.newCursor -> delivery.page ∈ after.handled) <->
        CursorStaysBehind before.handled cursor stream.deliveries := by
  have synced := ensures_sync projectId scopeKey cursor stream retirements before rfl
  rw [answered] at synced
  obtain ⟨⟨handled, greatest⟩, -⟩ := synced
  simp only [handled, mem_handled_iff, CursorStaysBehind, greatest, Option.some.injEq, forall_eq']
  exact forall_congr' fun delivery => forall_congr' fun _ => imp_not_comm

def releaseNotes : ConfluencePage where
  id := "71"
  title := "Release notes"
  spaceKey := "ENG"
  webUrl := "/x/71"
  storageHtml := "<p>42</p>"
  versionWhen := "2025-03-01T09:30:00.000Z"

def onePage (answer : ChunkAnswer String) : PageStream String where
  deliveries := [{ page := releaseNotes, budget := .granted, chunks := [answer] }]
  ending := none

def untouched : SyncState String where
  row := none
  queue := []
  handled := []
  auditLog := []

def nothingRetired : Retirements String where
  candidates := []
  ending := none

/-- Behind the page there is a later one, for which there is no budget. -/
def cutOff : PageStream String where
  deliveries := (onePage (.ok [])).deliveries ++ [{
    page := { releaseNotes with id := "72", versionWhen := "2025-03-02T09:30:00.000Z" }
    budget := .exceeded "1000 pages", chunks := [.ok []] }]
  ending := none

theorem fedPage_handled : (∀ delivery ∈ cutOff.deliveries,
      NotLater delivery.page.versionWhen "2025-03-01T09:30:00.000Z" ->
        delivery.page ∈ [releaseNotes]) <->
      CursorStaysBehind [] none cutOff.deliveries := by
  have answered : (sync 1 "ENG" none cutOff nothingRetired).run.run untouched =
      (.ok ⟨"2025-03-01T09:30:00.000Z", 1, 0⟩, _) := rfl
  exact sync_iff answered

/-- The extractor fails on the page, and the cursor moves up to it all the same. -/
theorem refusedPage_skipped : ∃ result after,
      (sync 1 "ENG" none (onePage (.error (.raised "TimeoutError" "llm"))) nothingRetired).run.run
        untouched = (.ok result, after) ∧ Not (∀ delivery,
        delivery ∈ (onePage (.error (.raised "TimeoutError" "llm"))).deliveries ->
        NotLater delivery.page.versionWhen result.newCursor -> delivery.page ∈ after.handled) := by
  refine ⟨⟨"2025-03-01T09:30:00.000Z", 0, 1⟩, _, rfl, fun handled => ?_⟩
  have there := handled _ (List.mem_singleton_self _) ⟨_, _, rfl, rfl, le_refl _⟩
  cases there

end Knowledge
end BreadMind
