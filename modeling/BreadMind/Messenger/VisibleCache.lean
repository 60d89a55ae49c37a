import BreadMind.Relay.Deployment

namespace BreadMind
namespace Messenger

open Execution
open Function (update update_apply update_of_ne update_self)

/-!
# The cache of visible channels

The endpoint that shows which channels a user sees keeps its answers in a
cache, one entry for each user.  A change of a membership, a role or an
activation is written to the tables first and deletes the entry afterwards.
An entry also disappears when its time is over and when the entries of a
workspace are deleted together.

A read asks the cache, then reads the role and the channels from the tables,
and then writes the entry, with other steps between any two of these.  The
step that ends a read by a failure may come at every one of them.
-/

abbrev ReaderId := Nat
abbrev ChangeId := Nat

inductive Reader where
  | asking (workspaceId userId : UUID)
  | missed (workspaceId userId : UUID)
  | ranked (workspaceId userId : UUID) (role : Role)
  | listed (workspaceId userId : UUID) (ids : List UUID)
  /-- The entry is written, its place among those of the workspace is not. -/
  | stored (workspaceId userId : UUID) (ids : List UUID)
  | answered (workspaceId userId : UUID) (ids : List UUID)
  | failed

inductive Changing where
  /-- The tables are changed and the entry is not deleted yet. -/
  | written (userId : UUID)
  | completed

structure CachedCore where
  db : Database
  entries : UUID -> Option (List UUID) := fun _ => none
  /-- The users whose entries belong to the workspace. -/
  index : UUID -> List UUID := fun _ => []
  readers : ReaderId -> Option Reader := fun _ => none
  changes : ChangeId -> Option Changing := fun _ => none

inductive CacheInput where
  | write (id : ChangeId) (change : Relay.Change)
  | invalidateUser (id : ChangeId)
  | ask (id : ReaderId) (workspaceId userId : UUID)
  | get (id : ReaderId)
  | readRole (id : ReaderId)
  | list (id : ReaderId)
  | set (id : ReaderId)
  | indexEntry (id : ReaderId)
  | fail (id : ReaderId)
  | invalidateWorkspace (workspaceId : UUID)
  /-- The time of an entry, or of a workspace's list of entries, is over. -/
  | expire (userId : UUID)
  | expireIndex (workspaceId : UUID)

def changedUser : Relay.Change -> UUID
  | .addMember _ userId => userId
  | .removeMember _ userId => userId
  | .updateUserRole _ userId _ => userId
  | .deactivateUser _ userId _ => userId

/-- `SELECT role`, of an active user of the workspace. -/
def activeRole (db : Database) (workspaceId userId : UUID) : Option Role :=
  match db.user userId with
  | some row => if row.workspaceId = workspaceId ∧ row.deactivatedAt = none then some row.role else none
  | none => none

namespace CachedCore

def goTo (state : CachedCore) (id : ReaderId) (reader : Reader) : CachedCore :=
  { state with readers := update state.readers id (some reader) }

def setEntry (state : CachedCore) (userId : UUID) (entry : Option (List UUID)) : CachedCore :=
  { state with entries := update state.entries userId entry }

def step (state : CachedCore) : CacheInput -> CachedCore
  | .write id change =>
    match state.changes id, change.apply state.db with
    | none, some db =>
      { state with
        db
        changes := update state.changes id (some (.written (changedUser change))) }
    | _, _ => state
  | .invalidateUser id =>
    match state.changes id with
    | some (.written userId) =>
      { state.setEntry userId none with
        changes := update state.changes id (some .completed) }
    | _ => state
  | .ask id workspaceId userId =>
    match state.readers id with
    | none => state.goTo id (.asking workspaceId userId)
    | some _ => state
  | .get id =>
    match state.readers id with
    | some (.asking workspaceId userId) =>
      match state.entries userId with
      | some ids => state.goTo id (.answered workspaceId userId ids)
      | none => state.goTo id (.missed workspaceId userId)
    | _ => state
  | .readRole id =>
    match state.readers id with
    | some (.missed workspaceId userId) =>
      match activeRole state.db workspaceId userId with
      | some role => state.goTo id (.ranked workspaceId userId role)
      | none => state.goTo id (.answered workspaceId userId [])
    | _ => state
  | .list id =>
    match state.readers id with
    | some (.ranked workspaceId userId role) =>
      state.goTo id (.listed workspaceId userId
        (listVisibleChannels state.db workspaceId userId role))
    | _ => state
  | .set id =>
    match state.readers id with
    | some (.listed workspaceId userId ids) =>
      (state.setEntry userId (some ids)).goTo id (.stored workspaceId userId ids)
    | _ => state
  | .indexEntry id =>
    match state.readers id with
    | some (.stored workspaceId userId ids) =>
      { state.goTo id (.answered workspaceId userId ids) with
        index := update state.index workspaceId
          ((state.index workspaceId).insert userId) }
    | _ => state
  | .fail id =>
    match state.readers id with
    | none => state
    | some (.answered _ _ _) => state
    | some _ => state.goTo id .failed
  | .invalidateWorkspace workspaceId =>
    { state with
      entries := fun userId => if userId ∈ state.index workspaceId then none else state.entries userId
      index := update state.index workspaceId [] }
  | .expire userId => state.setEntry userId none
  | .expireIndex workspaceId => { state with index := update state.index workspaceId [] }

end CachedCore

def cacheMachine (db : Database) : Machine CachedCore CacheInput where
  initial := { db }
  step := CachedCore.step

/-! ## Where an answer comes from -/

/-- The tables which an answer was computed from: those at the reading of the
role and those at the listing.  The version counts the changes of the user
that were written before the role was read. -/
structure Basis where
  workspaceId : UUID
  version : Nat
  roleFrom : Database
  listFrom : Database

/-- The answer for a user that has this basis. -/
def Basis.channels (basis : Basis) (userId : UUID) : List UUID :=
  match activeRole basis.roleFrom basis.workspaceId userId with
  | some role => listVisibleChannels basis.listFrom basis.workspaceId userId role
  | none => []

/-- The changes of each user are counted in the order in which they are written. -/
structure Versions where
  written : UUID -> Nat := fun _ => 0
  /-- The number of the latest change of the user which has completed. -/
  completed : UUID -> Nat := fun _ => 0
  number : ChangeId -> Nat := fun _ => 0
  /-- The number of the latest completed change when the read began. -/
  floor : ReaderId -> Nat := fun _ => 0
  basis : ReaderId -> Option Basis := fun _ => none
  entryBasis : UUID -> Option Basis := fun _ => none

def noteVersions (state : CachedCore) (input : CacheInput) (versions : Versions) : Versions :=
  match input with
  | .write id change =>
    match state.changes id, change.apply state.db with
    | none, some _ =>
      let userId := changedUser change
      { versions with
        written := update versions.written userId (versions.written userId + 1)
        number := update versions.number id (versions.written userId + 1) }
    | _, _ => versions
  | .invalidateUser id =>
    match state.changes id with
    | some (.written userId) =>
      { versions with
        completed := update versions.completed userId
          (max (versions.completed userId) (versions.number id)) }
    | _ => versions
  | .ask id _ userId =>
    match state.readers id with
    | none => { versions with floor := update versions.floor id (versions.completed userId) }
    | some _ => versions
  | .get id =>
    match state.readers id with
    | some (.asking _ userId) =>
      { versions with basis := update versions.basis id (versions.entryBasis userId) }
    | _ => versions
  | .readRole id =>
    match state.readers id with
    | some (.missed workspaceId userId) =>
      { versions with
        basis := update versions.basis id (some
          { workspaceId
            version := versions.written userId
            roleFrom := state.db
            listFrom := state.db }) }
    | _ => versions
  | .list id =>
    match state.readers id with
    | some (.ranked _ _ _) =>
      { versions with
        basis := update versions.basis id
          ((versions.basis id).map fun basis => { basis with listFrom := state.db }) }
    | _ => versions
  | .set id =>
    match state.readers id with
    | some (.listed _ userId _) =>
      { versions with
        entryBasis := update versions.entryBasis userId (versions.basis id) }
    | _ => versions
  | _ => versions

def notedCache (db : Database) : Machine (CachedCore × Versions) CacheInput :=
  (cacheMachine db).recording {} noteVersions

variable (current : CachedCore × Versions)

/-- Every answer was computed for the workspace it is given for, from tables
with every change of the user that had completed when the read began. -/
def AnswersCurrent : Prop :=
  ∀ id workspaceId userId ids,
    current.1.readers id = some (.answered workspaceId userId ids) ->
      ∃ basis, current.2.basis id = some basis ∧ basis.workspaceId = workspaceId ∧
        ids = basis.channels userId ∧ current.2.floor id ≤ basis.version

/-- A read that finds an entry asks for the user's own workspace, and an entry
is written only while no change has completed which was written after the role
was read. -/
def CachesCurrent : CacheInput -> Prop
  | .get id =>
    match current.1.readers id with
    | some (.asking workspaceId userId) => current.1.entries userId ≠ none ->
        ∀ row, current.1.db.user userId = some row -> row.workspaceId = workspaceId
    | _ => True
  | .set id =>
    match current.1.readers id with
    | some (.listed _ userId _) => ∀ basis, current.2.basis id = some basis ->
        current.2.completed userId ≤ basis.version
    | _ => True
  | _ => True

/-! ## Every entry and every answer is traced to its tables -/

def Home (db : Database) (workspaceId userId : UUID) : Prop :=
  ∃ row, db.user userId = some row ∧ row.workspaceId = workspaceId

structure Follows (workspaceId userId : UUID) (ids : List UUID) (floor : Nat) (basis : Basis) :
    Prop where
  within : basis.workspaceId = workspaceId
  lists : ids = basis.channels userId
  current : floor ≤ basis.version

def Reader.Traced (db : Database) (completed : UUID -> Nat) (floor : Nat) (basis : Option Basis) :
    Reader -> Prop
  | .asking _ userId => floor ≤ completed userId
  | .missed _ userId => floor ≤ completed userId
  | .ranked workspaceId userId role => Home db workspaceId userId ∧
      ∃ source, basis = some source ∧ source.workspaceId = workspaceId ∧
        activeRole source.roleFrom workspaceId userId = some role ∧ floor ≤ source.version
  | .listed workspaceId userId ids => Home db workspaceId userId ∧
      ∃ source, basis = some source ∧ Follows workspaceId userId ids floor source
  | .stored workspaceId userId ids =>
    ∃ source, basis = some source ∧ Follows workspaceId userId ids floor source
  | .answered workspaceId userId ids =>
    ∃ source, basis = some source ∧ Follows workspaceId userId ids floor source
  | .failed => True

structure Traced : Prop where
  counted : ∀ userId, current.2.completed userId ≤ current.2.written userId
  numbered : ∀ id userId, current.1.changes id = some (.written userId) ->
    current.2.number id ≤ current.2.written userId
  entry : ∀ userId ids, current.1.entries userId = some ids ->
    ∃ source, current.2.entryBasis userId = some source ∧
      Home current.1.db source.workspaceId userId ∧
        Follows source.workspaceId userId ids (current.2.completed userId) source
  reader : ∀ id reader, current.1.readers id = some reader ->
    reader.Traced current.1.db current.2.completed (current.2.floor id) (current.2.basis id)

variable {db : Database} {workspaceId userId : UUID}

theorem Home.of_activeRole {role : Role}
    (known : activeRole db workspaceId userId = some role) : Home db workspaceId userId := by
  unfold activeRole at known
  cases found : db.user userId with
  | none =>
    rw [found] at known
    cases known
  | some row =>
    rw [found] at known
    dsimp only at known
    split at known
    · rename_i here
      exact ⟨row, found, here.1⟩
    · cases known

theorem Home.apply {after : Database}
    (home : Home db workspaceId userId) {change : Relay.Change} (applied : change.apply db = some after) :
    Home after workspaceId userId := by
  rcases home with ⟨row, found, within⟩
  have mapped : ∀ update : UserRow -> UserRow, (∀ row, (update row).key = row.key) ->
      (∀ row, (update row).workspaceId = row.workspaceId) ->
        ∃ later, lookup UserRow.key (db.users.map update) userId = some later ∧
          later.workspaceId = workspaceId := by
    intro update keys kept
    refine ⟨update row, ?_, (kept row).trans within⟩
    exact (lookup_map keys userId).trans (congrArg (Option.map update) found)
  cases change with
  | addMember channelId member =>
    refine ⟨row, ?_, within⟩
    change Messenger.addMember db channelId member = some after at applied
    unfold Messenger.addMember at applied
    dsimp only at applied
    split at applied
    · split at applied
      all_goals
        cases applied
        exact found
    · cases applied
  | removeMember channelId member =>
    cases applied
    exact ⟨row, found, within⟩
  | updateUserRole home member role | deactivateUser home member now =>
    cases applied
    exact mapped _ (fun row => by split <;> rfl) (fun row => by split <;> rfl)

theorem Reader.Traced.mono {after : Database} {completed later : UUID -> Nat} {floor : Nat}
    {basis : Option Basis} {reader : Reader} (traced : reader.Traced db completed floor basis)
    (homes : ∀ workspaceId userId, Home db workspaceId userId -> Home after workspaceId userId)
    (more : ∀ userId, completed userId ≤ later userId) : reader.Traced after later floor basis := by
  cases reader with
  | asking workspaceId userId => exact Nat.le_trans traced (more userId)
  | missed workspaceId userId => exact Nat.le_trans traced (more userId)
  | ranked workspaceId userId role => exact ⟨homes _ _ traced.1, traced.2⟩
  | listed workspaceId userId ids => exact ⟨homes _ _ traced.1, traced.2⟩
  | stored workspaceId userId ids => exact traced
  | answered workspaceId userId ids => exact traced
  | failed => trivial

variable {state : CachedCore} {versions : Versions}

theorem CachedCore.goTo_readers (id other : ReaderId) (next : Reader) :
    (state.goTo id next).readers other = if other = id then some next else state.readers other :=
  update_apply _ _ _ _

theorem Traced.goTo (holds : Traced (state, versions)) {id : ReaderId} {next : Reader}
    {floor : ReaderId -> Nat} {basis : ReaderId -> Option Basis}
    (sameFloor : ∀ other ≠ id, floor other = versions.floor other)
    (sameBasis : ∀ other ≠ id, basis other = versions.basis other)
    (traced : next.Traced state.db versions.completed (floor id) (basis id)) :
    Traced (state.goTo id next, { versions with floor, basis }) where
  counted := holds.counted
  numbered := holds.numbered
  entry := holds.entry
  reader := by
    intro other reader current
    rw [show Prod.fst _ = state.goTo id next from rfl, CachedCore.goTo_readers] at current
    change reader.Traced state.db versions.completed (floor other) (basis other)
    by_cases here : other = id
    · rw [if_pos here] at current
      cases current
      rw [here]
      exact traced
    · rw [if_neg here] at current
      rw [sameFloor other here, sameBasis other here]
      exact holds.reader other reader current

theorem Traced.fewer (holds : Traced (state, versions)) {entries : UUID -> Option (List UUID)}
    (index : UUID -> List UUID)
    (kept : ∀ userId ids, entries userId = some ids -> state.entries userId = some ids) :
    Traced ({ state with entries, index }, versions) where
  counted := holds.counted
  numbered := holds.numbered
  entry := fun userId ids here => holds.entry userId ids (kept userId ids here)
  reader := holds.reader

theorem Traced.write (holds : Traced (state, versions)) (id : ChangeId) {change : Relay.Change}
    (applied : change.apply state.db = some db) (userId : UUID) : Traced ({ state with
        db
        changes := update state.changes id (some (.written userId)) },
      { versions with
        written := update versions.written userId (versions.written userId + 1)
        number := update versions.number id (versions.written userId + 1) }) where
  counted := by
    intro other
    change versions.completed other ≤ update versions.written userId _ other
    rw [update_apply]
    split
    · rename_i same
      have before := holds.counted other
      rw [same] at before ⊢
      exact Nat.le_succ_of_le before
    · exact holds.counted other
  numbered := by
    intro other user current
    change update state.changes id _ other = _ at current
    change update versions.number id _ other ≤ update versions.written userId _ user
    rw [update_apply] at current ⊢
    rw [update_apply]
    by_cases here : other = id
    · rw [if_pos here] at current ⊢
      cases current
      rw [if_pos rfl]
    · rw [if_neg here] at current ⊢
      have before : versions.number other ≤ versions.written user := holds.numbered other user current
      split
      · rename_i same
        rw [same] at before
        exact Nat.le_succ_of_le before
      · exact before
  entry := by
    intro user ids here
    rcases holds.entry user ids here with ⟨source, known, home, follows⟩
    exact ⟨source, known, home.apply applied, follows⟩
  reader := by
    intro reader at_ current
    exact (holds.reader reader at_ current).mono (fun _ _ home => home.apply applied)
      (fun _ => Nat.le_refl _)

theorem Traced.invalidate (holds : Traced (state, versions)) {id : ChangeId}
    (written : state.changes id = some (.written userId)) :
    Traced ({ state.setEntry userId none with
        changes := update state.changes id (some .completed) },
      { versions with
        completed := update versions.completed userId
          (max (versions.completed userId) (versions.number id)) }) := by
  have more : ∀ other, versions.completed other ≤
      update versions.completed userId
        (max (versions.completed userId) (versions.number id)) other := by
    intro other
    rw [update_apply]
    split
    · rename_i same
      rw [same]
      exact Nat.le_max_left _ _
    · exact Nat.le_refl _
  constructor
  · intro other
    change update versions.completed userId _ other ≤ versions.written other
    rw [update_apply]
    split
    · rename_i same
      rw [same]
      exact Nat.max_le.mpr ⟨holds.counted userId, holds.numbered id userId written⟩
    · exact holds.counted other
  · intro other user current
    change update state.changes id _ other = _ at current
    rw [update_apply] at current
    split at current
    · cases current
    · exact holds.numbered other user current
  · intro user ids here
    change update state.entries userId none user = some ids at here
    rw [update_apply] at here
    by_cases same : user = userId
    · rw [if_pos same] at here
      cases here
    · rw [if_neg same] at here
      change ∃ source, versions.entryBasis user = some source ∧ _ ∧
        Follows _ user ids (update versions.completed userId _ user) source
      rw [update_of_ne same]
      exact holds.entry user ids here
  · intro reader at_ current
    exact (holds.reader reader at_ current).mono (fun _ _ home => home) more

theorem Traced.set (holds : Traced (state, versions)) {id : ReaderId}
    {ids : List UUID} (listed : state.readers id = some (.listed workspaceId userId ids))
    (current : ∀ basis, versions.basis id = some basis ->
      versions.completed userId ≤ basis.version) : Traced (state.setEntry userId (some ids),
      { versions with
        entryBasis := update versions.entryBasis userId (versions.basis id) }) where
  counted := holds.counted
  numbered := holds.numbered
  reader := holds.reader
  entry := by
    intro user held here
    change update state.entries userId (some ids) user = some held at here
    change ∃ source,
      update versions.entryBasis userId (versions.basis id) user = some source ∧ _
    rw [update_apply] at here ⊢
    by_cases same : user = userId
    · rw [if_pos same] at here ⊢
      cases here
      subst same
      rcases holds.reader id _ listed with ⟨home, source, known, follows⟩
      refine ⟨source, known, ?_, ⟨rfl, follows.lists, current source known⟩⟩
      rw [follows.within]
      exact home
    · rw [if_neg same] at here ⊢
      exact holds.entry user held here

theorem Traced.advance (holds : Traced (state, versions)) (id : ReaderId) {next : Reader}
    (basis : Option Basis)
    (traced : next.Traced state.db versions.completed (versions.floor id) basis) :
    Traced (state.goTo id next, { versions with basis := update versions.basis id basis }) :=
  holds.goTo (fun _ _ => rfl) (fun other apart => update_of_ne apart _ _)
    (by rw [update_self]; exact traced)

theorem Traced.keep (holds : Traced (state, versions)) (id : ReaderId) {next : Reader}
    (traced : next.Traced state.db versions.completed (versions.floor id) (versions.basis id)) :
    Traced (state.goTo id next, versions) :=
  holds.goTo (fun _ _ => rfl) (fun _ _ => rfl) traced

theorem traced_get (holds : Traced (state, versions)) (id : ReaderId)
    (settled : CachesCurrent (state, versions) (.get id)) :
    Traced (state.step (.get id), noteVersions state (.get id) versions) := by
  unfold CachesCurrent at settled
  unfold CachedCore.step noteVersions
  dsimp only at settled ⊢
  cases reading : state.readers id with
  | none => exact holds
  | some reader =>
    cases reader with
    | asking workspaceId userId =>
      have floor : versions.floor id ≤ versions.completed userId := holds.reader id _ reading
      rw [reading] at settled
      dsimp only at settled ⊢
      cases found : state.entries userId with
      | none => exact holds.advance id _ floor
      | some ids =>
        rcases holds.entry userId ids found with ⟨source, known, home, follows⟩
        rcases home with ⟨row, present, within⟩
        have asked := settled (by rw [found]; exact Option.some_ne_none ids) row present
        refine holds.advance id _ ⟨source, known, ?_, follows.lists, ?_⟩
        · exact within.symm.trans asked
        · exact Nat.le_trans floor follows.current
    | _ => exact holds

theorem traced_readRole (holds : Traced (state, versions)) (id : ReaderId) :
    Traced (state.step (.readRole id), noteVersions state (.readRole id) versions) := by
  unfold CachedCore.step noteVersions
  dsimp only
  cases reading : state.readers id with
  | none => exact holds
  | some reader =>
    cases reader with
    | missed workspaceId userId =>
      have floor : versions.floor id ≤ versions.written userId :=
        Nat.le_trans (holds.reader id _ reading) (holds.counted userId)
      dsimp only
      cases known : activeRole state.db workspaceId userId with
      | none =>
        refine holds.advance id _ ⟨_, rfl, rfl, ?_, floor⟩
        unfold Basis.channels
        rw [known]
      | some role => exact holds.advance id _ ⟨Home.of_activeRole known, _, rfl, rfl, known, floor⟩
    | _ => exact holds

theorem traced_list (holds : Traced (state, versions)) (id : ReaderId) :
    Traced (state.step (.list id), noteVersions state (.list id) versions) := by
  unfold CachedCore.step noteVersions
  dsimp only
  cases reading : state.readers id with
  | none => exact holds
  | some reader =>
    cases reader with
    | ranked workspaceId userId role =>
      rcases holds.reader id _ reading with ⟨home, source, known, within, ranked, floor⟩
      replace known : versions.basis id = some source := known
      dsimp only
      rw [known]
      refine holds.advance id _ ⟨home, _, rfl, within, ?_, floor⟩
      unfold Basis.channels
      dsimp only
      rw [within, ranked]
    | _ => exact holds

theorem traced_set (holds : Traced (state, versions)) (id : ReaderId)
    (settled : CachesCurrent (state, versions) (.set id)) :
    Traced (state.step (.set id), noteVersions state (.set id) versions) := by
  unfold CachesCurrent at settled
  unfold CachedCore.step noteVersions
  dsimp only at settled ⊢
  cases reading : state.readers id with
  | none => exact holds
  | some reader =>
    cases reader with
    | listed workspaceId userId ids =>
      rw [reading] at settled
      exact (holds.set reading settled).keep id (holds.reader id _ reading).2
    | _ => exact holds

theorem traced_indexEntry (holds : Traced (state, versions)) (id : ReaderId) :
    Traced (state.step (.indexEntry id), versions) := by
  unfold CachedCore.step
  dsimp only
  cases reading : state.readers id with
  | none => exact holds
  | some reader =>
    cases reader with
    | stored workspaceId userId ids =>
      have traced := holds.reader id _ reading
      have answered : Traced (state.goTo id (.answered workspaceId userId ids), versions) :=
        holds.keep id traced
      exact answered.fewer _ fun _ _ here => here
    | _ => exact holds

theorem traced_fail (holds : Traced (state, versions)) (id : ReaderId) :
    Traced (state.step (.fail id), versions) := by
  have failed : Traced (state.goTo id .failed, versions) := holds.keep id trivial
  unfold CachedCore.step
  dsimp only
  cases state.readers id with
  | none => exact holds
  | some reader =>
    cases reader with
    | answered workspaceId userId ids => exact holds
    | _ => exact failed

theorem traced_setEntry_none (holds : Traced (state, versions)) (userId : UUID) :
    Traced (state.setEntry userId none, versions) := by
  refine holds.fewer state.index ?_
  intro other ids here
  rw [update_apply] at here
  split at here
  · cases here
  · exact here

theorem traced_step (db : Database) (current : CachedCore × Versions) (input : CacheInput)
    (holds : Traced current) (settled : CachesCurrent current input) :
    Traced ((notedCache db).step current input) := by
  rcases current with ⟨state, versions⟩
  change Traced (state.step input, noteVersions state input versions)
  cases input with
  | write id change =>
    unfold CachedCore.step noteVersions
    dsimp only
    cases state.changes id with
    | some changing => exact holds
    | none =>
      cases applied : change.apply state.db with
      | none => exact holds
      | some after => exact holds.write id applied _
  | invalidateUser id =>
    unfold CachedCore.step noteVersions
    dsimp only
    cases written : state.changes id with
    | none => exact holds
    | some changing =>
      cases changing with
      | written userId => exact holds.invalidate written
      | completed => exact holds
  | ask id workspaceId userId =>
    unfold CachedCore.step noteVersions
    dsimp only
    cases state.readers id with
    | some reader => exact holds
    | none =>
      refine holds.goTo (fun other apart => update_of_ne apart _ _) (fun _ _ => rfl) ?_
      rw [update_self]
      exact Nat.le_refl _
  | get id => exact traced_get holds id settled
  | readRole id => exact traced_readRole holds id
  | list id => exact traced_list holds id
  | set id => exact traced_set holds id settled
  | indexEntry id => exact traced_indexEntry holds id
  | fail id => exact traced_fail holds id
  | invalidateWorkspace workspaceId =>
    refine holds.fewer _ ?_
    intro userId ids here
    split at here
    · cases here
    · exact here
  | expire userId => exact traced_setEntry_none holds userId
  | expireIndex workspaceId => exact holds.fewer _ fun _ _ here => here

theorem traced_initial (db : Database) : Traced (notedCache db).initial where
  counted := fun _ => Nat.le_refl _
  numbered := nofun
  entry := nofun
  reader := nofun

theorem Traced.answersCurrent {current : CachedCore × Versions} (holds : Traced current) :
    AnswersCurrent current := by
  intro id workspaceId userId ids answered
  rcases holds.reader id _ answered with ⟨source, known, follows⟩
  exact ⟨source, known, follows.within, follows.lists, follows.current⟩

/-- While entries are written before the changes after their reading complete,
and are read for the user's own workspace, every answer is current. -/
theorem answers_current_run (db : Database) (inputs : List CacheInput)
    (settled : (notedCache db).EveryStep CachesCurrent inputs) :
    (notedCache db).EveryState AnswersCurrent inputs := by
  intro before rest split
  exact ((notedCache db).guarded_everyState Traced CachesCurrent (traced_initial db) (traced_step db)
    inputs settled before rest split).answersCurrent

def cellar : Database where
  users := [{ id := 1, workspaceId := 2, email := "ann@example.org", kind := .human, role := .member }]
  channels := [{
    id := 3
    workspaceId := 2
    kind := .privateChannel
    postingPolicy := .all
    isArchived := false }]
  members := [{ channelId := 3, userId := 1, role := .member }]
  usersById := Unique.insert List.Pairwise.nil (List.forall_mem_nil _)
  channelsById := guestRoom.channelsById
  membersByPair := guestRoom.membersByPair
  messagesById := messages_nil
  messagesBySequence := sequences_nil
  messagesByClientMsgId := clients_nil

def readAfterRemoval : List CacheInput :=
  [.ask 0 2 1, .get 0, .readRole 0, .list 0, .set 0, .indexEntry 0,
    .write 0 (.removeMember 3 1), .invalidateUser 0,
    .ask 1 2 1, .get 1, .readRole 1, .list 1, .set 1, .indexEntry 1]

theorem readAfterRemoval_current : (notedCache cellar).EveryState AnswersCurrent readAfterRemoval := by
  refine answers_current_run cellar readAfterRemoval ?_
  rw [Machine.everyStep_iff_stepsFrom]
  refine ⟨trivial, ?_, trivial, trivial, ?_, trivial, trivial, trivial, trivial, ?_, trivial, trivial, ?_,
    trivial, trivial⟩
  · intro cached
    exact absurd rfl cached
  · rintro basis ⟨⟩
    decide
  · intro cached
    exact absurd rfl cached
  · rintro basis ⟨⟩
    decide

/-- The first read writes its entry after the removal has completed, and the
second read finds the entry. -/
def removedMeanwhile : List CacheInput :=
  [.ask 0 2 1, .get 0, .readRole 0, .list 0,
    .write 0 (.removeMember 3 1), .invalidateUser 0, .set 0, .indexEntry 0, .ask 1 2 1, .get 1]

/-- The second read asks for another workspace. -/
def otherWorkspace : List CacheInput :=
  [.ask 0 2 1, .get 0, .readRole 0, .list 0, .set 0, .indexEntry 0, .ask 1 7 1, .get 1]

theorem removed_channel_answered :
    (¬ (notedCache cellar).EveryState AnswersCurrent removedMeanwhile) ∧
      ¬ (notedCache cellar).EveryState AnswersCurrent otherWorkspace := by
  constructor
  · intro every
    rcases every removedMeanwhile [] rfl 1 2 1 [3] rfl with ⟨basis, known, _, _, current⟩
    cases known
    exact absurd current (by decide)
  · intro every
    rcases every otherWorkspace [] rfl 1 7 1 [3] rfl with ⟨basis, known, within, _, _⟩
    cases known
    exact absurd within (by decide)

end Messenger
end BreadMind
