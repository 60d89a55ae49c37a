import BreadMind.Auth.EmailOtp
import BreadMind.Execution.Holders
import BreadMind.Messenger.Membership

namespace BreadMind
namespace Auth

open Execution Messenger
open Function (update update_apply update_of_ne)

/-!
# Sessions and the rotation of refresh tokens

A session keeps the digest of one refresh token.  A refresh reads the row of
the session, then the role of the user, and then writes the digest of a new
token; between the three statements other calls may run.

Tokens are opaque: how one is decoded and digested is left open, and the
library that seals a token with a random nonce is represented by the token
being an argument of the step that seals one.  A statement which fails has no
effect; that two digests clash is one of the ways to fail.
-/

structure AccessClaims where
  workspaceId : UUID
  userId : UUID
  role : Role
  expiresAt : Timestamp

variable (Token Digest : Type)

structure SessionTokens where
  sessionId : UUID
  accessToken : AccessClaims
  refreshToken : Token

structure UserSession where
  userId : UUID
  workspaceId : UUID
  refreshTokenHash : Digest
  expiresAt : Timestamp
  revokedAt : Option Timestamp := none
  lastUsedAt : Option Timestamp := none

inductive RefreshError where
  | refreshTokenInvalid (reason : String)
  | sessionRevoked

abbrev RefreshId := Nat

inductive Refreshing where
  | calling (token : Token)
  /-- The row was read and accepted the token. -/
  | checked (token : Token) (sessionId : UUID) (row : UserSession Digest) (newRefresh : Token)
  /-- The role was read, from the given row. -/
  | rotating (token : Token) (sessionId : UUID) (row : UserSession Digest) (newRefresh : Token)
      (user : UserRow) (newAccess : AccessClaims)
  | returned (token : Token) (tokens : SessionTokens Token)
  | raised (error : RefreshError)
  /-- A statement failed, or the call was cancelled. -/
  | abandoned

structure Sessions where
  core : Database
  rows : UUID -> Option (UserSession Digest) := fun _ => none
  calls : RefreshId -> Option (Refreshing Token Digest) := fun _ => none

inductive SessionInput where
  | create (sessionId userId workspaceId : UUID) (newRefresh : Token) (now : Timestamp)
  | refresh (id : RefreshId) (token : Token)
  | read (id : RefreshId) (clock : Timestamp) (newRefresh : Token)
  | readRole (id : RefreshId) (clock : Timestamp)
  | rotate (id : RefreshId) (now : Timestamp)
  | abandon (id : RefreshId)
  | revoke (sessionId : UUID) (now : Timestamp)
  | updateUserRole (workspaceId userId : UUID) (role : Role)
  | deactivateUser (workspaceId userId : UUID) (now : Timestamp)

/-- The two functions that look at a token, and the configured lifetimes. -/
structure TokenScheme where
  decodeRefresh : Token -> Timestamp -> Except String UUID
  hashRefresh : Token -> Digest
  accessTtlMin : Nat
  refreshTtlDays : Nat

variable {Token Digest} (scheme : TokenScheme Token Digest)

def minute : Timestamp := 60 * 1000000

def accessClaims (workspaceId userId : UUID) (role : Role) (clock : Timestamp) : AccessClaims where
  workspaceId := workspaceId
  userId := userId
  role := role
  expiresAt := clock + scheme.accessTtlMin * minute

def refreshExpires (now : Timestamp) : Timestamp :=
  now + scheme.refreshTtlDays * (24 * 60 * minute)

/-- `refresh_session` up to its second statement. -/
def checkRefresh [DecidableEq Digest] (rows : UUID -> Option (UserSession Digest)) (token : Token)
    (clock : Timestamp) (newRefresh : Token) : Refreshing Token Digest :=
  match scheme.decodeRefresh token clock with
  | .error reason => .raised (.refreshTokenInvalid reason)
  | .ok sessionId =>
    match rows sessionId with
    | none => .raised (.refreshTokenInvalid "session not found")
    | some row =>
      if row.revokedAt ≠ none then .raised .sessionRevoked
      else if row.refreshTokenHash ≠ scheme.hashRefresh token then
        .raised (.refreshTokenInvalid "token mismatch (rotated already?)")
      else .checked token sessionId row newRefresh

namespace Sessions

def goTo (state : Sessions Token Digest) (id : RefreshId) (call : Refreshing Token Digest) :
    Sessions Token Digest :=
  { state with calls := update state.calls id (some call) }

def setRow (state : Sessions Token Digest) (sessionId : UUID)
    (change : UserSession Digest -> UserSession Digest) : Sessions Token Digest :=
  { state with
    rows := update state.rows sessionId ((state.rows sessionId).map change) }

def step [DecidableEq Digest] (state : Sessions Token Digest) :
    SessionInput Token -> Sessions Token Digest
  | .create sessionId userId workspaceId newRefresh now =>
    match state.core.user userId, state.rows sessionId with
    | some _, none =>
      { state with
        rows := update state.rows sessionId (some
          { userId, workspaceId
            refreshTokenHash := scheme.hashRefresh newRefresh
            expiresAt := refreshExpires scheme now }) }
    | _, _ => state
  | .refresh id token =>
    match state.calls id with
    | none => state.goTo id (.calling token)
    | some _ => state
  | .read id clock newRefresh =>
    match state.calls id with
    | some (.calling token) => state.goTo id (checkRefresh scheme state.rows token clock newRefresh)
    | _ => state
  | .readRole id clock =>
    match state.calls id with
    | some (.checked token sessionId row newRefresh) =>
      match state.core.user row.userId with
      | none => state.goTo id (.raised (.refreshTokenInvalid "user not found"))
      | some user =>
        state.goTo id (.rotating token sessionId row newRefresh user
          (accessClaims scheme row.workspaceId row.userId user.role clock))
    | _ => state
  | .rotate id now =>
    match state.calls id with
    | some (.rotating token sessionId _ newRefresh _ newAccess) =>
      (state.setRow sessionId fun row =>
        { row with
          refreshTokenHash := scheme.hashRefresh newRefresh
          expiresAt := refreshExpires scheme now
          lastUsedAt := some now }).goTo id
        (.returned token { sessionId, accessToken := newAccess, refreshToken := newRefresh })
    | _ => state
  | .abandon id =>
    match state.calls id with
    | some (.calling _) => state.goTo id .abandoned
    | some (.checked _ _ _ _) => state.goTo id .abandoned
    | some (.rotating _ _ _ _ _ _) => state.goTo id .abandoned
    | _ => state
  | .revoke sessionId now =>
    state.setRow sessionId fun row =>
      if row.revokedAt = none then { row with revokedAt := some now } else row
  | .updateUserRole workspaceId userId role =>
    { state with core := Messenger.updateUserRole state.core workspaceId userId role }
  | .deactivateUser workspaceId userId now =>
    { state with core := Messenger.deactivateUser state.core workspaceId userId now }

end Sessions

def sessionMachine [DecidableEq Digest] (core : Database) :
    Machine (Sessions Token Digest) (SessionInput Token) where
  initial := { core }
  step := Sessions.step scheme

variable (Token)

/-- The tokens that were sealed, and for each session the last one handed out. -/
structure Handouts where
  sealed : List Token := []
  latest : UUID -> Option Token := fun _ => none

variable {Token}

def SessionInput.seals : SessionInput Token -> Option Token
  | .create _ _ _ newRefresh _ => some newRefresh
  | .read _ _ newRefresh => some newRefresh
  | _ => none

def handOut (state : Sessions Token Digest) (input : SessionInput Token) (latest : UUID -> Option Token) :
    UUID -> Option Token :=
  match input with
  | .create sessionId userId _ newRefresh _ =>
    match state.core.user userId, state.rows sessionId with
    | some _, none => update latest sessionId (some newRefresh)
    | _, _ => latest
  | .rotate id _ =>
    match state.calls id with
    | some (.rotating _ sessionId _ newRefresh _ _) => update latest sessionId (some newRefresh)
    | _ => latest
  | _ => latest

def noteHandout (state : Sessions Token Digest) (input : SessionInput Token)
    (handouts : Handouts Token) : Handouts Token where
  sealed := input.seals.toList ++ handouts.sealed
  latest := handOut state input handouts.latest

def notedSessions [DecidableEq Digest] (core : Database) :
    Machine (Sessions Token Digest × Handouts Token) (SessionInput Token) :=
  (sessionMachine scheme core).recording {} noteHandout

/-- No two calls exchange one token, and a session keeps the digest of the
token it gave out last. -/
structure Rotated (current : Sessions Token Digest × Handouts Token) : Prop where
  once : ∀ first second token firstTokens secondTokens,
    current.1.calls first = some (.returned token firstTokens) ->
      current.1.calls second = some (.returned token secondTokens) -> first = second
  latest : ∀ sessionId row, current.1.rows sessionId = some row ->
    ∃ token, current.2.latest sessionId = some token ∧
      row.refreshTokenHash = scheme.hashRefresh token

/-- Tokens are handed out for sessions that are not revoked and users that are
not deactivated. -/
def RotatesForActive (current : Sessions Token Digest × Handouts Token) : SessionInput Token -> Prop
  | .rotate id _ =>
    match current.1.calls id with
    | some (.rotating _ sessionId _ _ _ _) => ∀ row, current.1.rows sessionId = some row ->
        row.revokedAt = none ∧
          ∀ user, current.1.core.user row.userId = some user -> user.deactivatedAt = none
    | _ => True
  | _ => True

/-- A revocation and a deactivation stay. -/
def KeepsRevoked [DecidableEq Digest] (current : Sessions Token Digest × Handouts Token)
    (input : SessionInput Token) : Prop :=
  (∀ sessionId row, current.1.rows sessionId = some row -> row.revokedAt ≠ none ->
    ∃ later, (current.1.step scheme input).rows sessionId = some later ∧
      later.revokedAt ≠ none) ∧
  ∀ userId user, current.1.core.user userId = some user -> user.deactivatedAt ≠ none ->
    ∃ later, (current.1.step scheme input).core.user userId = some later ∧
      later.deactivatedAt ≠ none

/-- Sealing draws a nonce, so that no digest comes twice. -/
def SealsFresh (current : Sessions Token Digest × Handouts Token) (input : SessionInput Token) : Prop :=
  ∀ token, input.seals = some token ->
    scheme.hashRefresh token ∉ current.2.sealed.map scheme.hashRefresh

/-- The role is read from an active user, and the rotation is written to rows
which are still as the call has read them. -/
def RowsStand (current : Sessions Token Digest × Handouts Token) : SessionInput Token -> Prop
  | .readRole id _ =>
    match current.1.calls id with
    | some (.checked _ _ row _) => ∀ user, current.1.core.user row.userId = some user ->
        user.deactivatedAt = none
    | _ => True
  | .rotate id _ =>
    match current.1.calls id with
    | some (.rotating _ sessionId row _ user _) =>
      (∀ now, current.1.rows sessionId = some now ->
        now.refreshTokenHash = row.refreshTokenHash ∧ now.revokedAt = row.revokedAt) ∧
      ∀ now, current.1.core.user row.userId = some now ->
        now.deactivatedAt = user.deactivatedAt
    | _ => True
  | _ => True

/-! ## Where the digests are -/

/-- A digest is in the row of a session, or waits to be written there by a
call, or was presented in an exchange. -/
inductive Place where
  | stored (sessionId : UUID)
  | pending (id : RefreshId)
  | spent (id : RefreshId)
  deriving DecidableEq

namespace Refreshing

def pendingToken : Refreshing Token Digest -> Option Token
  | .checked _ _ _ newRefresh => some newRefresh
  | .rotating _ _ _ newRefresh _ _ => some newRefresh
  | _ => none

def spentToken : Refreshing Token Digest -> Option Token
  | .returned token _ => some token
  | _ => none

end Refreshing

def digestAt (state : Sessions Token Digest) : Place -> Option Digest
  | .stored sessionId => (state.rows sessionId).map UserSession.refreshTokenHash
  | .pending id => ((state.calls id).bind Refreshing.pendingToken).map scheme.hashRefresh
  | .spent id => ((state.calls id).bind Refreshing.spentToken).map scheme.hashRefresh

structure Accepted (rows : UUID -> Option (UserSession Digest)) (token : Token) (sessionId : UUID)
    (row : UserSession Digest) : Prop where
  unrevoked : row.revokedAt = none
  presented : row.refreshTokenHash = scheme.hashRefresh token
  owner : ∃ now, rows sessionId = some now ∧ now.userId = row.userId

def Refreshing.Knows (rows : UUID -> Option (UserSession Digest)) : Refreshing Token Digest -> Prop
  | .checked token sessionId row _ => Accepted scheme rows token sessionId row
  | .rotating token sessionId row _ user _ =>
    Accepted scheme rows token sessionId row ∧ user.deactivatedAt = none
  | _ => True

structure Sound (current : Sessions Token Digest × Handouts Token) : Prop where
  holders : SoleHolders (digestAt scheme current.1) (current.2.sealed.map scheme.hashRefresh)
  latest : ∀ sessionId row, current.1.rows sessionId = some row ->
    ∃ token, current.2.latest sessionId = some token ∧
      row.refreshTokenHash = scheme.hashRefresh token
  knows : ∀ id call, current.1.calls id = some call -> call.Knows scheme current.1.rows

variable {scheme} {state : Sessions Token Digest} {handouts : Handouts Token}

theorem Sessions.goTo_calls (id other : RefreshId) (call : Refreshing Token Digest) :
    (state.goTo id call).calls other = if other = id then some call else state.calls other :=
  update_apply _ _ _ _

theorem Sessions.setRow_rows (sessionId other : UUID)
    (change : UserSession Digest -> UserSession Digest) :
    (state.setRow sessionId change).rows other =
      if other = sessionId then (state.rows sessionId).map change else state.rows other :=
  update_apply _ _ _ _

def KeepsOwners (before after : UUID -> Option (UserSession Digest)) : Prop :=
  ∀ sessionId row, before sessionId = some row -> ∃ now,
    after sessionId = some now ∧ now.userId = row.userId

variable {token : Token} {sessionId : UUID} {row : UserSession Digest}

theorem Accepted.mono {before after : UUID -> Option (UserSession Digest)}
    (accepted : Accepted scheme before token sessionId row)
    (kept : KeepsOwners before after) : Accepted scheme after token sessionId row := by
  rcases accepted.owner with ⟨now, present, owner⟩
  rcases kept sessionId now present with ⟨later, presentLater, same⟩
  exact ⟨accepted.unrevoked, accepted.presented, later, presentLater, same.trans owner⟩

theorem Refreshing.Knows.mono {before after : UUID -> Option (UserSession Digest)}
    {call : Refreshing Token Digest} (knows : call.Knows scheme before)
    (kept : KeepsOwners before after) : call.Knows scheme after := by
  cases call with
  | checked token sessionId row newRefresh => exact Accepted.mono knows kept
  | rotating token sessionId row newRefresh user newAccess =>
    exact ⟨Accepted.mono knows.1 kept, knows.2⟩
  | _ => trivial

variable {change : UserSession Digest -> UserSession Digest}

theorem keepsOwners_setRow (sessionId : UUID) (same : ∀ row, (change row).userId = row.userId) :
    KeepsOwners state.rows (state.setRow sessionId change).rows := by
  intro other row present
  rw [Sessions.setRow_rows]
  by_cases here : other = sessionId
  · rw [if_pos here, ← here, present]
    exact ⟨change row, rfl, same row⟩
  · rw [if_neg here]
    exact ⟨row, present, rfl⟩

theorem digestAt_goTo (id : RefreshId) (call : Refreshing Token Digest) (place : Place) :
    digestAt scheme (state.goTo id call) place =
      if place = .pending id then call.pendingToken.map scheme.hashRefresh
      else if place = .spent id then call.spentToken.map scheme.hashRefresh
      else digestAt scheme state place := by
  cases place with
  | stored sessionId => rfl
  | pending other =>
    change (((state.goTo id call).calls other).bind _).map _ = _
    rw [Sessions.goTo_calls]
    by_cases here : other = id
    · rw [if_pos here, if_pos (congrArg Place.pending here)]
      rfl
    · rw [if_neg here, if_neg (fun same => here (Place.pending.inj same)), if_neg nofun]
      rfl
  | spent other =>
    change (((state.goTo id call).calls other).bind _).map _ = _
    rw [Sessions.goTo_calls]
    by_cases here : other = id
    · rw [if_pos here, if_neg nofun, if_pos (congrArg Place.spent here)]
      rfl
    · rw [if_neg here, if_neg nofun, if_neg (fun same => here (Place.spent.inj same))]
      rfl

theorem digestAt_setRow
    (same : ∀ row, (change row).refreshTokenHash = row.refreshTokenHash) (place : Place) :
    digestAt scheme (state.setRow sessionId change) place = digestAt scheme state place := by
  cases place with
  | stored other =>
    change ((state.setRow sessionId change).rows other).map _ = (state.rows other).map _
    rw [Sessions.setRow_rows]
    by_cases here : other = sessionId
    · rw [if_pos here, here, Option.map_map]
      exact congrArg (fun read => (state.rows sessionId).map read) (funext same)
    · rw [if_neg here]
  | pending id => rfl
  | spent id => rfl

/-! ## Every step keeps track of the digests -/

theorem Sound.issue (holds : Sound scheme (state, handouts)) (token : Token) :
    Sound scheme (state, { handouts with sealed := token :: handouts.sealed }) where
  holders := holds.holders.issue _
  latest := holds.latest
  knows := holds.knows

theorem Sound.goTo (holds : Sound scheme (state, handouts)) {id : RefreshId}
    {call : Refreshing Token Digest} (pending : ∀ token, call.pendingToken = some token ->
      digestAt scheme state (.pending id) = some (scheme.hashRefresh token))
    (unspent : call.spentToken = none) (knows : call.Knows scheme state.rows) :
    Sound scheme (state.goTo id call, handouts) where
  holders := by
    refine holds.holders.drop ?_
    intro place digest held
    rw [digestAt_goTo] at held
    split at held
    · rename_i here
      rcases Option.map_eq_some_iff.mp held with ⟨token, waiting, same⟩
      rw [here, pending token waiting, same]
    · split at held
      · rw [unspent] at held
        cases held
      · exact held
  latest := holds.latest
  knows := by
    intro other next current
    rw [show Prod.fst _ = state.goTo id call from rfl, Sessions.goTo_calls] at current
    by_cases here : other = id
    · rw [if_pos here] at current
      cases current
      exact knows
    · rw [if_neg here] at current
      exact holds.knows other next current

theorem checkRefresh_cases [DecidableEq Digest] (rows : UUID -> Option (UserSession Digest))
    (token : Token) (clock : Timestamp) (newRefresh : Token) :
    (∃ error, checkRefresh scheme rows token clock newRefresh = .raised error) ∨
      ∃ sessionId row, Accepted scheme rows token sessionId row ∧
          checkRefresh scheme rows token clock newRefresh = .checked token sessionId row newRefresh := by
  unfold checkRefresh
  cases scheme.decodeRefresh token clock with
  | error reason => exact .inl ⟨_, rfl⟩
  | ok sessionId =>
    dsimp only
    cases present : rows sessionId with
    | none => exact .inl ⟨_, rfl⟩
    | some row =>
      dsimp only
      split
      · exact .inl ⟨_, rfl⟩
      · rename_i unrevoked
        split
        · exact .inl ⟨_, rfl⟩
        · rename_i presented
          exact .inr ⟨sessionId, row,
            ⟨not_not.mp unrevoked, not_not.mp presented, row, present, rfl⟩, rfl⟩

variable {newRefresh : Token}

theorem Sound.checked (holds : Sound scheme (state, handouts)) {id : RefreshId}
    (fresh : scheme.hashRefresh newRefresh ∉ handouts.sealed.map scheme.hashRefresh)
    (accepted : Accepted scheme state.rows token sessionId row) :
    Sound scheme (state.goTo id (.checked token sessionId row newRefresh),
      { handouts with sealed := newRefresh :: handouts.sealed }) where
  holders := by
    refine holds.holders.insert (.pending id) fresh ?_ ?_
    · intro digest held
      rw [digestAt_goTo, if_pos rfl] at held
      cases held
      rfl
    · intro other digest apart held
      rw [digestAt_goTo, if_neg apart] at held
      split at held
      · cases held
      · exact held
  latest := holds.latest
  knows := by
    intro other next current
    rw [show Prod.fst _ = Sessions.goTo state id _ from rfl, Sessions.goTo_calls] at current
    by_cases here : other = id
    · rw [if_pos here] at current
      cases current
      exact accepted
    · rw [if_neg here] at current
      exact holds.knows other next current

theorem Sound.created (holds : Sound scheme (state, handouts))
    (fresh : scheme.hashRefresh newRefresh ∉ handouts.sealed.map scheme.hashRefresh)
    (free : state.rows sessionId = none)
    (digest : row.refreshTokenHash = scheme.hashRefresh newRefresh) :
    Sound scheme ({ state with rows := update state.rows sessionId (some row) },
      { sealed := newRefresh :: handouts.sealed
        latest := update handouts.latest sessionId (some newRefresh) }) where
  holders := by
    refine holds.holders.insert (.stored sessionId) fresh ?_ ?_
    · intro held here
      change (update state.rows sessionId (some row) sessionId).map _ = _ at here
      rw [Function.update_self] at here
      cases here
      exact digest
    · intro other held apart here
      cases other with
      | stored place =>
        change (update state.rows sessionId (some row) place).map _ = _ at here
        rw [update_of_ne (fun same => apart (congrArg Place.stored same))] at here
        exact here
      | pending id => exact here
      | spent id => exact here
  latest := by
    intro other held present
    change update state.rows sessionId (some row) other = some held at present
    change ∃ token, update handouts.latest sessionId _ other = some token ∧ _
    rw [update_apply] at present ⊢
    by_cases here : other = sessionId
    · rw [if_pos here] at present ⊢
      cases present
      exact ⟨newRefresh, rfl, digest⟩
    · rw [if_neg here] at present ⊢
      exact holds.latest other held present
  knows := by
    intro id call current
    refine (holds.knows id call current).mono ?_
    intro other held present
    refine ⟨held, ?_, rfl⟩
    change update state.rows sessionId (some row) other = some held
    rw [update_of_ne, present]
    rintro rfl
    rw [free] at present
    cases present

def rotationOrigin (sessionId : UUID) (id : RefreshId) (place : Place) : Place :=
  if place = .stored sessionId then .pending id
  else if place = .spent id then .stored sessionId
  else place

theorem rotationOrigin_injective {id : RefreshId} {first second : Place}
    (firstApart : first ≠ .pending id) (secondApart : second ≠ .pending id)
    (same : rotationOrigin sessionId id first = rotationOrigin sessionId id second) :
    first = second := by
  unfold rotationOrigin at same
  by_cases firstStored : first = .stored sessionId
  · rw [if_pos firstStored] at same
    by_cases secondStored : second = .stored sessionId
    · exact firstStored.trans secondStored.symm
    · rw [if_neg secondStored] at same
      split at same
      · cases same
      · exact absurd same.symm secondApart
  · rw [if_neg firstStored] at same
    by_cases secondStored : second = .stored sessionId
    · rw [if_pos secondStored] at same
      split at same
      · cases same
      · exact absurd same firstApart
    · rw [if_neg secondStored] at same
      by_cases firstSpent : first = .spent id
      · rw [if_pos firstSpent] at same
        split at same
        · rename_i secondSpent
          exact firstSpent.trans secondSpent.symm
        · exact absurd same.symm secondStored
      · rw [if_neg firstSpent] at same
        split at same
        · exact absurd same firstStored
        · exact same

theorem Sound.rotated (holds : Sound scheme (state, handouts)) {id : RefreshId} {user : UserRow}
    {newAccess : AccessClaims} {tokens : SessionTokens Token}
    (call : state.calls id = some (.rotating token sessionId row newRefresh user newAccess))
    (stands : ∀ now, state.rows sessionId = some now -> now.refreshTokenHash = row.refreshTokenHash)
    (digest : ∀ row, (change row).refreshTokenHash = scheme.hashRefresh newRefresh)
    (owner : ∀ row, (change row).userId = row.userId) :
    Sound scheme ((state.setRow sessionId change).goTo id (.returned token tokens),
      { handouts with latest := update handouts.latest sessionId (some newRefresh) }) where
  holders := by
    have accepted : Accepted scheme state.rows token sessionId row := (holds.knows id _ call).1
    have from_ : ∀ place held,
        digestAt scheme ((state.setRow sessionId change).goTo id (.returned token tokens)) place =
          some held ->
        digestAt scheme state (rotationOrigin sessionId id place) = some held := by
      intro place held here
      unfold rotationOrigin
      rw [digestAt_goTo] at here
      split at here
      · cases here
      · split at here
        · rename_i spent
          rw [if_neg (spent ▸ nofun), if_pos spent]
          rcases accepted.owner with ⟨now, present, _⟩
          change (state.rows sessionId).map _ = _
          rw [present, Option.map_some, stands now present, accepted.presented]
          exact here
        · rename_i unspent
          cases place with
          | stored other =>
            change ((state.setRow sessionId change).rows other).map _ = _ at here
            rw [Sessions.setRow_rows] at here
            by_cases same : other = sessionId
            · rw [if_pos (congrArg Place.stored same)]
              change ((state.calls id).bind _).map _ = _
              rw [call]
              rw [if_pos same, Option.map_map] at here
              rcases Option.map_eq_some_iff.mp here with ⟨now, _, written⟩
              exact congrArg some ((digest now).symm.trans written)
            · rw [if_neg (fun equal => same (Place.stored.inj equal)), if_neg unspent]
              rw [if_neg same] at here
              exact here
          | pending other => exact here
          | spent other =>
            rw [if_neg nofun, if_neg unspent]
            exact here
    refine holds.holders.move (rotationOrigin sessionId id) from_ ?_
    have apart : ∀ place,
        digestAt scheme ((state.setRow sessionId change).goTo id (.returned token tokens)) place ≠
          none -> place ≠ .pending id := by
      rintro place filled rfl
      rw [digestAt_goTo, if_pos rfl] at filled
      exact filled rfl
    intro first second firstFilled secondFilled same
    exact rotationOrigin_injective (apart first firstFilled) (apart second secondFilled) same
  latest := by
    intro other held present
    change (state.setRow sessionId change).rows other = some held at present
    change ∃ token, update handouts.latest sessionId _ other = some token ∧ _
    rw [Sessions.setRow_rows] at present
    rw [update_apply]
    by_cases here : other = sessionId
    · rw [if_pos here] at present ⊢
      rcases Option.map_eq_some_iff.mp present with ⟨now, _, written⟩
      exact ⟨newRefresh, rfl, written ▸ digest now⟩
    · rw [if_neg here] at present ⊢
      exact holds.latest other held present
  knows := by
    intro other next current
    rw [show Prod.fst _ = Sessions.goTo _ id _ from rfl, Sessions.goTo_calls] at current
    by_cases here : other = id
    · rw [if_pos here] at current
      cases current
      trivial
    · rw [if_neg here] at current
      exact (holds.knows other next current).mono (keepsOwners_setRow sessionId owner)

theorem Sound.setRow (holds : Sound scheme (state, handouts)) (sessionId : UUID)
    (digest : ∀ row, (change row).refreshTokenHash = row.refreshTokenHash)
    (owner : ∀ row, (change row).userId = row.userId) :
    Sound scheme (state.setRow sessionId change, handouts) where
  holders := by
    refine holds.holders.drop ?_
    intro place held here
    rw [digestAt_setRow digest] at here
    exact here
  latest := by
    intro other held present
    change (state.setRow sessionId change).rows other = some held at present
    rw [Sessions.setRow_rows] at present
    by_cases here : other = sessionId
    · rw [if_pos here] at present
      rcases Option.map_eq_some_iff.mp present with ⟨now, current, written⟩
      rw [← written, digest]
      exact holds.latest other now (here ▸ current)
    · rw [if_neg here] at present
      exact holds.latest other held present
  knows := fun id call current =>
    (holds.knows id call current).mono (keepsOwners_setRow sessionId owner)

theorem Sound.goesRight {current : Sessions Token Digest × Handouts Token}
    (holds : Sound scheme current) : Rotated scheme current where
  once := by
    intro first second token firstTokens secondTokens firstReturned secondReturned
    have spent : ∀ id tokens, current.1.calls id = some (.returned token tokens) ->
        digestAt scheme current.1 (.spent id) = some (scheme.hashRefresh token) := by
      intro id tokens returned
      change ((current.1.calls id).bind _).map _ = _
      rw [returned]
      rfl
    exact Place.spent.inj (holds.holders.sole _ _ _ (spent first _ firstReturned)
      (spent second _ secondReturned))
  latest := holds.latest

theorem Sound.rotatesForActive {current : Sessions Token Digest × Handouts Token}
    {input : SessionInput Token} (holds : Sound scheme current) (stands : RowsStand current input) :
    RotatesForActive current input := by
  cases input with
  | rotate id now =>
    unfold RowsStand at stands
    unfold RotatesForActive
    dsimp only at stands ⊢
    cases call : current.1.calls id with
    | none => trivial
    | some reached =>
      cases reached with
      | rotating token sessionId row newRefresh user newAccess =>
        rw [call] at stands
        have known : Accepted scheme current.1.rows token sessionId row ∧
            user.deactivatedAt = none := holds.knows id _ call
        intro held present
        rcases known.1.owner with ⟨same, presentSame, owner⟩
        rw [present] at presentSame
        cases presentSame
        refine ⟨(stands.1 held present).2.trans known.1.unrevoked, ?_⟩
        intro holder found
        rw [owner] at found
        exact (stands.2 holder found).trans known.2
      | _ => trivial
  | _ => trivial

theorem revoked_setRow {other : UUID}
    (present : state.rows other = some row) (revoked : row.revokedAt ≠ none)
    (kept : ∀ row, row.revokedAt ≠ none -> (change row).revokedAt ≠ none) :
    ∃ later, (state.setRow sessionId change).rows other = some later ∧ later.revokedAt ≠ none := by
  rw [Sessions.setRow_rows]
  by_cases here : other = sessionId
  · rw [if_pos here, ← here, present]
    exact ⟨change row, rfl, kept row revoked⟩
  · rw [if_neg here]
    exact ⟨row, present, revoked⟩

section Steps

variable [DecidableEq Digest]

theorem sound_create (holds : Sound scheme (state, handouts))
    (sessionId userId workspaceId : UUID) (newRefresh : Token) (now : Timestamp)
    (fresh : scheme.hashRefresh newRefresh ∉ handouts.sealed.map scheme.hashRefresh) :
    Sound scheme (state.step scheme (.create sessionId userId workspaceId newRefresh now),
      noteHandout state (.create sessionId userId workspaceId newRefresh now) handouts) := by
  unfold Sessions.step noteHandout handOut
  dsimp only
  cases state.core.user userId with
  | none => exact holds.issue newRefresh
  | some user =>
    cases free : state.rows sessionId with
    | none => exact holds.created fresh free rfl
    | some row => exact holds.issue newRefresh

theorem sound_read (holds : Sound scheme (state, handouts)) (id : RefreshId) (clock : Timestamp)
    (newRefresh : Token)
    (fresh : scheme.hashRefresh newRefresh ∉ handouts.sealed.map scheme.hashRefresh) :
    Sound scheme (state.step scheme (.read id clock newRefresh),
      noteHandout state (.read id clock newRefresh) handouts) := by
  unfold Sessions.step
  dsimp only
  cases state.calls id with
  | none => exact holds.issue newRefresh
  | some call =>
    cases call with
    | calling token =>
      dsimp only
      rcases @checkRefresh_cases _ _ scheme _ state.rows token clock newRefresh with
        ⟨error, refused⟩ | ⟨sessionId, row, accepted, passed⟩
      · have raised : Sound scheme (state.goTo id (.raised error), handouts) :=
          holds.goTo nofun rfl trivial
        rw [refused]
        exact raised.issue newRefresh
      · rw [passed]
        exact holds.checked fresh accepted
    | _ => exact holds.issue newRefresh

theorem sound_readRole (holds : Sound scheme (state, handouts)) (id : RefreshId) (clock : Timestamp)
    (stands : RowsStand (state, handouts) (.readRole id clock)) :
    Sound scheme (state.step scheme (.readRole id clock), handouts) := by
  unfold RowsStand at stands
  unfold Sessions.step
  dsimp only at stands ⊢
  cases current : state.calls id with
  | none => exact holds
  | some call =>
    cases call with
    | checked token sessionId row newRefresh =>
      rw [current] at stands
      dsimp only at stands ⊢
      cases found : state.core.user row.userId with
      | none => exact holds.goTo nofun rfl trivial
      | some user =>
        refine holds.goTo ?_ rfl ⟨holds.knows id _ current, stands user found⟩
        rintro token ⟨⟩
        change ((state.calls id).bind _).map _ = _
        rw [current]
        rfl
    | _ => exact holds

theorem sound_rotate (holds : Sound scheme (state, handouts)) (id : RefreshId) (now : Timestamp)
    (stands : RowsStand (state, handouts) (.rotate id now)) :
    Sound scheme (state.step scheme (.rotate id now), noteHandout state (.rotate id now) handouts) := by
  unfold RowsStand at stands
  unfold Sessions.step noteHandout handOut
  dsimp only at stands ⊢
  cases current : state.calls id with
  | none => exact holds
  | some call =>
    cases call with
    | rotating token sessionId row newRefresh user newAccess =>
      rw [current] at stands
      exact holds.rotated current (fun now present => (stands.1 now present).1) (fun _ => rfl)
        (fun _ => rfl)
    | _ => exact holds

theorem sound_abandon (holds : Sound scheme (state, handouts)) (id : RefreshId) :
    Sound scheme (state.step scheme (.abandon id), handouts) := by
  have abandoned : Sound scheme (state.goTo id .abandoned, handouts) := holds.goTo nofun rfl trivial
  unfold Sessions.step
  dsimp only
  cases state.calls id with
  | none => exact holds
  | some call =>
    cases call with
    | returned token tokens | raised error | abandoned => exact holds
    | _ => exact abandoned

theorem sound_step (core : Database) (current : Sessions Token Digest × Handouts Token)
    (input : SessionInput Token) (holds : Sound scheme current)
    (settled : SealsFresh scheme current input ∧ RowsStand current input) :
    Sound scheme ((notedSessions scheme core).step current input) := by
  rcases current with ⟨state, handouts⟩
  change Sound scheme (state.step scheme input, noteHandout state input handouts)
  cases input with
  | create sessionId userId workspaceId newRefresh now =>
    exact sound_create holds _ _ _ _ _ (settled.1 newRefresh rfl)
  | refresh id token =>
    unfold Sessions.step
    dsimp only
    cases state.calls id with
    | none => exact holds.goTo nofun rfl trivial
    | some call => exact holds
  | read id clock newRefresh => exact sound_read holds id clock newRefresh (settled.1 newRefresh rfl)
  | readRole id clock => exact sound_readRole holds id clock settled.2
  | rotate id now => exact sound_rotate holds id now settled.2
  | abandon id => exact sound_abandon holds id
  | revoke sessionId now =>
    exact holds.setRow sessionId (fun row => by split <;> rfl) (fun row => by split <;> rfl)
  | updateUserRole workspaceId userId role => exact ⟨holds.holders, holds.latest, holds.knows⟩
  | deactivateUser workspaceId userId now => exact ⟨holds.holders, holds.latest, holds.knows⟩

theorem sound_initial (core : Database) : Sound scheme (notedSessions scheme core).initial where
  holders := by
    constructor
    · intro first second digest here
      cases first <;> cases here
    · intro place digest here
      cases place <;> cases here
  latest := fun _ _ impossible => nomatch impossible
  knows := fun _ _ impossible => nomatch impossible

theorem revoked_step (input : SessionInput Token) {sessionId : UUID} {row : UserSession Digest}
    (present : state.rows sessionId = some row) (revoked : row.revokedAt ≠ none) :
    ∃ later, (state.step scheme input).rows sessionId = some later ∧ later.revokedAt ≠ none := by
  have unchanged : ∃ later, state.rows sessionId = some later ∧ later.revokedAt ≠ none :=
    ⟨row, present, revoked⟩
  cases input with
  | create other userId workspaceId newRefresh now =>
    unfold Sessions.step
    dsimp only
    split
    · rename_i free
      refine ⟨row, ?_, revoked⟩
      change update state.rows other _ sessionId = some row
      rw [update_of_ne, present]
      rintro rfl
      rw [free] at present
      cases present
    · exact unchanged
  | rotate id now =>
    unfold Sessions.step
    dsimp only
    split
    · exact revoked_setRow present revoked fun _ kept => kept
    · exact unchanged
  | revoke other now =>
    refine revoked_setRow present revoked ?_
    intro row kept
    rw [if_neg kept]
    exact kept
  | _ =>
    unfold Sessions.step
    dsimp only
    repeat' split
    all_goals exact unchanged

theorem deactivated_step (input : SessionInput Token) {userId : UUID} {user : UserRow}
    (present : state.core.user userId = some user) (inactive : user.deactivatedAt ≠ none) :
    ∃ later, (state.step scheme input).core.user userId = some later ∧
      later.deactivatedAt ≠ none := by
  have unchanged : ∃ later, state.core.user userId = some later ∧
      later.deactivatedAt ≠ none := ⟨user, present, inactive⟩
  cases input with
  | updateUserRole workspaceId member role =>
    refine ⟨_, (lookup_map (fun row => by split <;> rfl) userId).trans
      (congrArg (Option.map _) present), ?_⟩
    dsimp only
    split
    · exact inactive
    · exact inactive
  | deactivateUser workspaceId member now =>
    refine ⟨_, (lookup_map (fun row => by split <;> rfl) userId).trans
      (congrArg (Option.map _) present), ?_⟩
    dsimp only
    split
    · exact Option.some_ne_none now
    · exact inactive
  | _ =>
    unfold Sessions.step
    dsimp only
    repeat' split
    all_goals exact unchanged

end Steps

/-- While roles are read from active users and rotations are written to rows as they
were read, every token is exchanged at most once, for sessions and users in force.
Revocations and deactivations always stay. -/
theorem sessions_rotated_run [DecidableEq Digest] (scheme : TokenScheme Token Digest)
    (core : Database) (inputs : List (SessionInput Token)) :
    (notedSessions scheme core).EveryStep (KeepsRevoked scheme) inputs ∧
      ((notedSessions scheme core).EveryStep (SealsFresh scheme) inputs ->
        (notedSessions scheme core).EveryStep RowsStand inputs ->
          (notedSessions scheme core).EveryState (Rotated scheme) inputs ∧
            (notedSessions scheme core).EveryStep RotatesForActive inputs) := by
  refine ⟨?_, ?_⟩
  · intro before input rest split
    exact ⟨fun _ _ => revoked_step input, fun _ _ => deactivated_step input⟩
  · intro fresh stand
    have guarded : (notedSessions scheme core).EveryStep
        (fun current input => SealsFresh scheme current input ∧ RowsStand current input) inputs :=
      fun before input rest split => ⟨fresh before input rest split, stand before input rest split⟩
    constructor
    · intro before rest split
      exact ((notedSessions scheme core).guarded_everyState (Sound scheme) _ (sound_initial core)
        (sound_step core) inputs guarded before rest split).goesRight
    · exact (notedSessions scheme core).everyStep_of_guarded (Sound scheme) _ (sound_initial core)
        (sound_step core) (fun _ _ holds settled => holds.rotatesForActive settled.2) inputs guarded

def plainTokens : TokenScheme (UUID × Nat) (UUID × Nat) where
  decodeRefresh := fun token _ => .ok token.1
  hashRefresh := id
  accessTtlMin := 15
  refreshTtlDays := 30

def soleMember : Database where
  users := [{ id := 1, workspaceId := 2, email := "ann@example.org", kind := .human, role := .member }]
  usersById := by decide
  channelsById := channels_nil
  membersByPair := members_nil
  messagesById := messages_nil
  messagesBySequence := sequences_nil
  messagesByClientMsgId := clients_nil

def refreshedOnce : List (SessionInput (UUID × Nat)) :=
  [.create 3 1 2 (3, 0) 0, .refresh 0 (3, 0), .read 0 1 (3, 1), .readRole 0 1, .rotate 0 2,
    .refresh 1 (3, 0), .read 1 3 (3, 2), .readRole 1 3, .rotate 1 4, .revoke 3 5]

theorem refreshedOnce_rotated :
    (notedSessions plainTokens soleMember).EveryState (Rotated plainTokens) refreshedOnce ∧
      (notedSessions plainTokens soleMember).EveryStep RotatesForActive refreshedOnce := by
  refine (sessions_rotated_run plainTokens soleMember refreshedOnce).2 ?_ ?_
  · rw [Machine.everyStep_iff_stepsFrom]
    refine ⟨?_, nofun, ?_, nofun, nofun, nofun, ?_, nofun, nofun, nofun, trivial⟩
    all_goals
      rintro token ⟨⟩
      decide
  · rw [Machine.everyStep_iff_stepsFrom]
    refine ⟨trivial, trivial, trivial, ?_, ⟨?_, ?_⟩, trivial, trivial, trivial, trivial, trivial, trivial⟩
    · rintro user ⟨⟩
      rfl
    · rintro now ⟨⟩
      exact ⟨rfl, rfl⟩
    · rintro now ⟨⟩
      rfl

/-- Two calls read the row before one of them writes it. -/
def overlappingRefreshes : List (SessionInput (UUID × Nat)) :=
  [.create 3 1 2 (3, 0) 0, .refresh 0 (3, 0), .refresh 1 (3, 0), .read 0 1 (3, 1), .read 1 1 (3, 2),
    .readRole 0 1, .readRole 1 1, .rotate 0 2, .rotate 1 2]

/-- A revocation falls between the reading and the writing. -/
def revokedMeanwhile : List (SessionInput (UUID × Nat)) :=
  [.create 3 1 2 (3, 0) 0, .refresh 0 (3, 0), .read 0 1 (3, 1), .readRole 0 1, .revoke 3 1, .rotate 0 2]

def deactivatedBefore : List (SessionInput (UUID × Nat)) :=
  [.create 3 1 2 (3, 0) 0, .deactivateUser 2 1 1, .refresh 0 (3, 0), .read 0 2 (3, 1), .readRole 0 2,
    .rotate 0 3]

theorem exchanged_twice :
    ((notedSessions plainTokens soleMember).EveryStep (SealsFresh plainTokens) overlappingRefreshes ∧
      ¬ (notedSessions plainTokens soleMember).EveryState (Rotated plainTokens)
        overlappingRefreshes) ∧
    ((notedSessions plainTokens soleMember).EveryStep (SealsFresh plainTokens) revokedMeanwhile ∧
      ¬ (notedSessions plainTokens soleMember).EveryStep RotatesForActive revokedMeanwhile) ∧
    ((notedSessions plainTokens soleMember).EveryStep (SealsFresh plainTokens) deactivatedBefore ∧
      ¬ (notedSessions plainTokens soleMember).EveryStep RotatesForActive deactivatedBefore) := by
  refine ⟨⟨?_, ?_⟩, ⟨?_, ?_⟩, ⟨?_, ?_⟩⟩
  · rw [Machine.everyStep_iff_stepsFrom]
    refine ⟨?_, nofun, nofun, ?_, ?_, nofun, nofun, nofun, nofun, trivial⟩
    all_goals
      rintro token ⟨⟩
      decide
  · intro every
    have same := (every overlappingRefreshes [] rfl).once 0 1 (3, 0) _ _ rfl rfl
    cases same
  · rw [Machine.everyStep_iff_stepsFrom]
    refine ⟨?_, nofun, ?_, nofun, nofun, nofun, trivial⟩
    all_goals
      rintro token ⟨⟩
      decide
  · intro every
    have written := every (revokedMeanwhile.take 5) (.rotate 0 2) [] rfl _ rfl
    cases written.1
  · rw [Machine.everyStep_iff_stepsFrom]
    refine ⟨?_, nofun, nofun, ?_, nofun, nofun, trivial⟩
    all_goals
      rintro token ⟨⟩
      decide
  · intro every
    have written := every (deactivatedBefore.take 5) (.rotate 0 3) [] rfl _ rfl
    cases written.2 _ rfl

end Auth
end BreadMind
