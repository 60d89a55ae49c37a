import BreadMind.Auth.EmailOtp
import BreadMind.Execution.Indexes
import BreadMind.Execution.TwoRuns

namespace BreadMind
namespace Auth

open Execution

/-!
# Invites

An invite is accepted in several statements: the row is read and checked, the
user is inserted, the row is marked and the channels are joined one by one.
Nothing holds them together, so that other calls may run in between and each of
them may fail after the earlier ones have taken effect.

The log keeps which call created which user.
-/

/-- The roles which `workspace_users` admits. -/
def userRoles : List String :=
  ["owner", "admin", "member", "guest", "single_channel_guest"]

structure InviteRow (Digest : Type) where
  id : UUID
  workspaceId : UUID
  email : String
  role : String
  tokenHash : Digest
  channelIds : Option (List UUID)
  expiresAt : Instant
  acceptedAt : Option Instant := none
  revokedAt : Option Instant := none
  deriving DecidableEq

structure InvitedUser where
  id : UUID
  workspaceId : UUID
  email : String
  kind : String := "human"
  displayName : String
  realName : Option String
  externalId : Option String
  role : String

def InviteRow.key {Digest : Type} (row : InviteRow Digest) : Option UUID :=
  some row.id

def InviteRow.tokenKey {Digest : Type} (row : InviteRow Digest) : Option Digest :=
  some row.tokenHash

namespace InvitedUser

def key (user : InvitedUser) : Option UUID :=
  some user.id

/-- Addresses are compared without regard to case. -/
def emailKey (lower : String -> String) (user : InvitedUser) : Option (UUID × String) :=
  some (user.workspaceId, lower user.email)

def externalKey (user : InvitedUser) : Option (UUID × String) :=
  user.externalId.map fun externalId => (user.workspaceId, externalId)

/-- The row may not be inserted beside the other one. -/
def Collides (lower : String -> String) (user other : InvitedUser) : Prop :=
  Clashes key user other ∨ Clashes (emailKey lower) user other ∨ Clashes externalKey user other

instance (lower : String -> String) (user other : InvitedUser) : Decidable (Collides lower user other) :=
  inferInstanceAs (Decidable (_ ∨ _ ∨ _))

end InvitedUser

structure InviteTables (Digest : Type) (lower : String -> String) where
  invites : List (InviteRow Digest) := []
  users : List InvitedUser := []
  /-- The channels that exist. -/
  channels : List UUID := []
  members : List (UUID × UUID) := []
  invitesById : Unique InviteRow.key invites
  invitesByToken : Unique InviteRow.tokenKey invites
  usersById : Unique InvitedUser.key users
  usersByEmail : Unique (InvitedUser.emailKey lower) users
  usersByExternalId : Unique InvitedUser.externalKey users

structure AcceptRequest where
  token : String
  displayName : String
  externalId : Option String := none
  realName : Option String := none
  deriving DecidableEq

inductive AcceptError where
  | inviteInvalid (reason : String)
  | inviteExpired (reason : String)
  | checkViolation
  | uniqueViolation
  | foreignKeyViolation
  /-- A statement fails for a reason of its own. -/
  | raised (kind : String)
  deriving DecidableEq

inductive Accepting (Digest : Type) where
  | checked (request : AcceptRequest) (row : InviteRow Digest)
  /-- The user is inserted and the invite is not marked yet. -/
  | inserted (row : InviteRow Digest) (newUid : UUID)
  | joining (newUid cid : UUID) (rest : List UUID)
  | returned (newUid : UUID)
  | failed (error : AcceptError)
  deriving DecidableEq

inductive AcceptStatement where
  | insert (newUid : UUID)
  | mark (now : Instant)
  | join
  /-- The statement which the call is waiting for fails. -/
  | fail (kind : String)

abbrev AcceptId := Nat

inductive InviteInput where
  | begin (id : AcceptId) (request : AcceptRequest) (clock : Instant)
  | perform (id : AcceptId) (statement : AcceptStatement)
  | revoke (inviteId : UUID) (now : Instant)

variable {Digest : Type} {lower : String -> String}

namespace InviteTables

variable (tables : InviteTables Digest lower)

def setInvite (change : InviteRow Digest -> InviteRow Digest)
    (same : ∀ row, (change row).id = row.id) (sameToken : ∀ row, (change row).tokenHash = row.tokenHash) :
    InviteTables Digest lower :=
  { tables with
    invites := tables.invites.map change
    invitesById := tables.invitesById.update fun row => congrArg some (same row)
    invitesByToken := tables.invitesByToken.update fun row => congrArg some (sameToken row) }

def markAccepted (inviteId : UUID) (now : Instant) : InviteTables Digest lower :=
  tables.setInvite
    (fun row => if row.id = inviteId then { row with acceptedAt := some now } else row)
    (fun row => by split <;> rfl) (fun row => by split <;> rfl)

def revokeInvite (inviteId : UUID) (now : Instant) : InviteTables Digest lower :=
  tables.setInvite
    (fun row => if row.id = inviteId ∧ row.revokedAt = none then { row with revokedAt := some now } else row)
    (fun row => by split <;> rfl) (fun row => by split <;> rfl)

def newUser (request : AcceptRequest) (row : InviteRow Digest) (newUid : UUID) : InvitedUser where
  id := newUid
  workspaceId := row.workspaceId
  email := row.email
  displayName := request.displayName
  realName := request.realName
  externalId := request.externalId
  role := row.role

def insertUser (user : InvitedUser) : Except AcceptError (InviteTables Digest lower) :=
  if user.role ∈ userRoles then
    if free : ∀ other ∈ tables.users, ¬ InvitedUser.Collides lower other user then
      .ok { tables with
        users := tables.users ++ [user]
        usersById := tables.usersById.insert fun other member clash =>
          free other member (Or.inl clash)
        usersByEmail := tables.usersByEmail.insert fun other member clash =>
          free other member (Or.inr (Or.inl clash))
        usersByExternalId := tables.usersByExternalId.insert fun other member clash =>
          free other member (Or.inr (Or.inr clash)) }
    else .error .uniqueViolation
  else .error .checkViolation

def joinChannel (cid newUid : UUID) : Except AcceptError (InviteTables Digest lower) :=
  if cid ∈ tables.channels ∧ newUid ∈ tables.users.map InvitedUser.id then
    .ok (if (cid, newUid) ∈ tables.members then tables
      else { tables with members := tables.members ++ [(cid, newUid)] })
  else .error .foreignKeyViolation

end InviteTables

def nextChannel (newUid : UUID) : List UUID -> Accepting Digest
  | [] => .returned newUid
  | cid :: rest => .joining newUid cid rest

def checkInvite [DecidableEq Digest] (sha256 : String -> Digest) (tables : InviteTables Digest lower)
    (request : AcceptRequest) (clock : Instant) : Accepting Digest :=
  match lookup InviteRow.tokenKey tables.invites (sha256 request.token) with
  | none => .failed (.inviteInvalid "token not found")
  | some row =>
    if row.revokedAt ≠ none then .failed (.inviteInvalid "revoked")
    else if row.acceptedAt ≠ none then .failed (.inviteInvalid "already accepted")
    else if row.expiresAt < clock then .failed (.inviteExpired "expired")
    else .checked request row

def performStatement (tables : InviteTables Digest lower) :
    Accepting Digest -> AcceptStatement -> InviteTables Digest lower × Accepting Digest
  | .checked request row, .insert newUid =>
    match tables.insertUser (InviteTables.newUser request row newUid) with
    | .ok inserted => (inserted, .inserted row newUid)
    | .error error => (tables, .failed error)
  | .inserted row newUid, .mark now =>
    (tables.markAccepted row.id now, nextChannel newUid (row.channelIds.getD []))
  | .joining newUid cid rest, .join =>
    match tables.joinChannel cid newUid with
    | .ok joined => (joined, nextChannel newUid rest)
    | .error error => (tables, .failed error)
  | .returned newUid, _ => (tables, .returned newUid)
  | .failed error, _ => (tables, .failed error)
  | _, .fail kind => (tables, .failed (.raised kind))
  | call, _ => (tables, call)

structure CreatedUser where
  call : AcceptId
  inviteId : UUID
  userId : UUID

structure Acceptances (Digest : Type) (lower : String -> String) where
  tables : InviteTables Digest lower
  calls : AcceptId -> Option (Accepting Digest) := fun _ => none
  created : List CreatedUser := []

def noteCreated (id : AcceptId) : Accepting Digest -> Accepting Digest -> List CreatedUser
  | .checked _ row, .inserted _ newUid => [{ call := id, inviteId := row.id, userId := newUid }]
  | _, _ => []

namespace Acceptances

def step [DecidableEq Digest] (sha256 : String -> Digest) (state : Acceptances Digest lower) :
    InviteInput -> Acceptances Digest lower
  | .begin id request clock =>
    match state.calls id with
    | none => { state with
        calls := Function.update state.calls id (some (checkInvite sha256 state.tables request clock)) }
    | some _ => state
  | .perform id statement =>
    match state.calls id with
    | some call =>
      let (tables, next) := performStatement state.tables call statement
      { tables
        calls := Function.update state.calls id (some next)
        created := state.created ++ noteCreated id call next }
    | none => state
  | .revoke inviteId now => { state with tables := state.tables.revokeInvite inviteId now }

end Acceptances

def inviteMachine [DecidableEq Digest] (sha256 : String -> Digest) (start : InviteTables Digest lower) :
    Machine (Acceptances Digest lower) InviteInput where
  initial := { tables := start }
  step := Acceptances.step sha256

section Laws

variable [DecidableEq Digest] (sha256 : String -> Digest)

variable (state : Acceptances Digest lower)

def OneUserPerInvite : Prop :=
  (state.created.map CreatedUser.inviteId).Nodup

/-- A user is created only from an invite which is not revoked. -/
def NoneAfterRevocation (input : InviteInput) : Prop :=
  ∀ user, (state.step sha256 input).created = state.created ++ [user] ->
    ∀ row ∈ state.tables.invites, row.id = user.inviteId -> row.revokedAt = none

def InviteInput.IsOf (id : AcceptId) : InviteInput -> Bool
  | .begin other _ _ => other = id
  | .perform other _ => other = id
  | .revoke _ _ => false

/-- A call that fails has created nobody, and the tables are those of the same run
without the call: whatever could be accepted still can. -/
def LeavesNoTrace (start : InviteTables Digest lower) (inputs : List InviteInput) : Prop :=
  ∀ id error, ((inviteMachine sha256 start).after inputs).calls id = some (.failed error) ->
    (∀ user ∈ ((inviteMachine sha256 start).after inputs).created, user.call ≠ id) ∧
      ((inviteMachine sha256 start).after inputs).tables =
        ((inviteMachine sha256 start).after (inputs.filter fun input => !input.IsOf id)).tables

def EmailTaken (tables : InviteTables Digest lower) (row : InviteRow Digest) : Prop :=
  ∃ user ∈ tables.users, user.emailKey lower = some (row.workspaceId, lower row.email)

def Accepting.isPast : Accepting Digest -> Bool
  | .inserted _ _ => true
  | .joining _ _ _ => true
  | .returned _ => true
  | _ => false

/-- No statement fails after the user has been inserted, and no invite is revoked
between the check of an acceptance and its insertion, as long as that can succeed. -/
def Uncut : InviteInput -> Prop
  | .perform id (.fail _) => ∀ call, state.calls id = some call -> call.isPast = true ->
      ∃ newUid, call = .returned newUid
  | .perform id .join => ∀ newUid cid rest, state.calls id = some (.joining newUid cid rest) ->
      cid ∈ state.tables.channels
  | .revoke inviteId _ => ∀ id request row, state.calls id = some (.checked request row) ->
      row.id = inviteId -> EmailTaken state.tables row
  | _ => True

end Laws

/-! ## What a statement does -/

section Statements

variable {tables after : InviteTables Digest lower} {call next : Accepting Digest}
variable {statement : AcceptStatement} {row : InviteRow Digest} {newUid cid : UUID}

structure Carries (tables after : InviteTables Digest lower) : Prop where
  users : ∀ user ∈ tables.users, user ∈ after.users
  invites : ∀ row ∈ tables.invites, ∃ later ∈ after.invites,
    later.id = row.id ∧ later.workspaceId = row.workspaceId ∧ later.email = row.email ∧
    later.revokedAt = row.revokedAt

theorem Carries.refl (tables : InviteTables Digest lower) : Carries tables tables :=
  ⟨fun _ member => member, fun row member => ⟨row, member, rfl, rfl, rfl, rfl⟩⟩

theorem EmailTaken.carried (taken : EmailTaken tables row) (carries : Carries tables after) :
    EmailTaken after row := by
  rcases taken with ⟨user, member, key⟩
  exact ⟨user, carries.users user member, key⟩

structure Enrolled (tables : InviteTables Digest lower) (user : InvitedUser)
    (after : InviteTables Digest lower) : Prop where
  free : ∀ other ∈ tables.users, other.emailKey lower ≠ user.emailKey lower
  users : after.users = tables.users ++ [user]
  invites : after.invites = tables.invites

theorem enrolled_of_insertUser {user : InvitedUser} (inserted : tables.insertUser user = .ok after) :
    Enrolled tables user after := by
  unfold InviteTables.insertUser at inserted
  split at inserted
  · split at inserted
    · rename_i free
      cases inserted
      refine ⟨fun other member same => ?_, rfl, rfl⟩
      exact free other member (Or.inr (Or.inl ⟨Option.some_ne_none _, same⟩))
    · cases inserted
  · cases inserted

theorem Enrolled.carries {user : InvitedUser} (enrolled : Enrolled tables user after) :
    Carries tables after where
  users := fun _ member => enrolled.users ▸ List.mem_append_left _ member
  invites := fun row member => ⟨row, enrolled.invites ▸ member, rfl, rfl, rfl, rfl⟩

theorem carries_markAccepted (inviteId : UUID) (now : Instant) :
    Carries tables (tables.markAccepted inviteId now) where
  users := fun _ member => member
  invites := by
    intro row member
    refine ⟨_, List.mem_map_of_mem member, ?_⟩
    split <;> exact ⟨rfl, rfl, rfl, rfl⟩

theorem carries_of_joinChannel (joined : tables.joinChannel cid newUid = .ok after) :
    Carries tables after ∧ after.users = tables.users := by
  unfold InviteTables.joinChannel at joined
  split at joined
  · cases joined
    split
    · exact ⟨Carries.refl tables, rfl⟩
    · exact ⟨⟨fun _ member => member, fun row member => ⟨row, member, rfl, rfl, rfl, rfl⟩⟩, rfl⟩
  · cases joined

inductive Performed (tables : InviteTables Digest lower) :
    Accepting Digest -> AcceptStatement -> InviteTables Digest lower -> Accepting Digest -> Prop
  | idle (call : Accepting Digest) (statement : AcceptStatement) :
      Performed tables call statement tables call
  | failed {call : Accepting Digest} {statement : AcceptStatement} (error : AcceptError)
      (early : call.isPast = true -> (∀ newUid, call ≠ .returned newUid) ∧
        ((∃ kind, statement = .fail kind) ∨ (statement = .join ∧
          ∃ newUid cid rest, call = .joining newUid cid rest ∧
            ¬ (cid ∈ tables.channels ∧ newUid ∈ tables.users.map InvitedUser.id)))) :
      Performed tables call statement tables (.failed error)
  | inserted {after : InviteTables Digest lower} (request : AcceptRequest) (row : InviteRow Digest)
      (newUid : UUID) (enrolled : Enrolled tables (InviteTables.newUser request row newUid) after) :
      Performed tables (.checked request row) (.insert newUid) after (.inserted row newUid)
  | marked (row : InviteRow Digest) (newUid : UUID) (now : Instant) :
      Performed tables (.inserted row newUid) (.mark now) (tables.markAccepted row.id now)
        (nextChannel newUid (row.channelIds.getD []))
  | joined {after : InviteTables Digest lower} (newUid cid : UUID) (rest : List UUID)
      (joined : tables.joinChannel cid newUid = .ok after) :
      Performed tables (.joining newUid cid rest) .join after (nextChannel newUid rest)

theorem performed_performStatement (tables : InviteTables Digest lower) (call : Accepting Digest)
    (statement : AcceptStatement) :
    Performed tables call statement (performStatement tables call statement).1
      (performStatement tables call statement).2 := by
  cases call with
  | checked request row =>
    cases statement with
    | insert newUid =>
      simp only [performStatement]
      split
      · rename_i inserted
        exact .inserted request row newUid (enrolled_of_insertUser inserted)
      · exact .failed _ fun impossible => nomatch impossible
    | mark now => exact .idle _ _
    | join => exact .idle _ _
    | fail kind => exact .failed _ fun impossible => nomatch impossible
  | inserted row newUid =>
    cases statement with
    | insert other => exact .idle _ _
    | mark now => exact .marked row newUid now
    | join => exact .idle _ _
    | fail kind => exact .failed _ fun _ => ⟨fun _ same => (nomatch same), Or.inl ⟨kind, rfl⟩⟩
  | joining newUid cid rest =>
    cases statement with
    | insert other => exact .idle _ _
    | mark now => exact .idle _ _
    | join =>
      simp only [performStatement]
      split
      · rename_i joined
        exact .joined newUid cid rest joined
      · rename_i refused
        refine .failed _ fun _ => ⟨fun _ same => (nomatch same), Or.inr ⟨rfl, newUid, cid, rest, rfl, ?_⟩⟩
        intro both
        simp only [InviteTables.joinChannel, both, and_self, if_true, reduceCtorEq] at refused
    | fail kind => exact .failed _ fun _ => ⟨fun _ same => (nomatch same), Or.inl ⟨kind, rfl⟩⟩
  | returned newUid => cases statement <;> exact .idle _ _
  | failed error => cases statement <;> exact .idle _ _

theorem Performed.carries (performed : Performed tables call statement after next) :
    Carries tables after := by
  cases performed with
  | idle => exact Carries.refl tables
  | failed => exact Carries.refl tables
  | inserted request row newUid enrolled => exact enrolled.carries
  | marked row newUid now => exact carries_markAccepted row.id now
  | joined newUid cid rest joined => exact (carries_of_joinChannel joined).1

theorem isPast_nextChannel (rest : List UUID) :
    (nextChannel newUid rest : Accepting Digest).isPast = true := by
  cases rest <;> rfl

end Statements

/-! ## Invariants of a run -/

section Invariants

variable {state : Acceptances Digest lower} {after : InviteTables Digest lower} {id : AcceptId}
variable {call next : Accepting Digest} {statement : AcceptStatement}

def Accepting.newUser : Accepting Digest -> Option UUID
  | .inserted _ newUid => some newUid
  | .joining newUid _ _ => some newUid
  | _ => none

def Snapshot (tables : InviteTables Digest lower) (row : InviteRow Digest) : Prop :=
  ∃ stored ∈ tables.invites, stored.id = row.id ∧
    stored.workspaceId = row.workspaceId ∧ stored.email = row.email ∧
    (stored.revokedAt = none ∨ EmailTaken tables row)

theorem Snapshot.carried {tables : InviteTables Digest lower} {row : InviteRow Digest}
    (snapshot : Snapshot tables row) (carries : Carries tables after) : Snapshot after row := by
  rcases snapshot with ⟨stored, member, named, workspace, email, open_⟩
  rcases carries.invites stored member with ⟨later, laterIn, laterNamed, laterWorkspace, laterEmail, same⟩
  refine ⟨later, laterIn, laterNamed.trans named, laterWorkspace.trans workspace,
    laterEmail.trans email, ?_⟩
  rw [same]
  exact open_.imp_right fun taken => taken.carried carries

namespace Acceptances

structure Sound (state : Acceptances Digest lower) : Prop where
  checked : ∀ id request row, state.calls id = some (.checked request row) ->
    Snapshot state.tables row
  present : ∀ id call newUid, state.calls id = some call -> call.newUser = some newUid ->
    newUid ∈ state.tables.users.map InvitedUser.id
  taken : ∀ user ∈ state.created, ∃ stored ∈ state.tables.invites,
    stored.id = user.inviteId ∧ EmailTaken state.tables stored
  past : ∀ user ∈ state.created, ∃ call,
    state.calls user.call = some call ∧ call.isPast = true
  once : OneUserPerInvite state

namespace Sound

theorem move (sound : state.Sound) (carries : Carries state.tables after)
    (checked : ∀ request row, next = .checked request row -> Snapshot after row)
    (past : ∀ call, state.calls id = some call -> call.isPast = true -> next.isPast = true)
    (present : ∀ newUid, next.newUser = some newUid -> newUid ∈ after.users.map InvitedUser.id) :
    Sound { state with tables := after, calls := Function.update state.calls id (some next) } where
  checked := by
    intro other request row at_
    change Function.update state.calls id (some next) other = _ at at_
    by_cases here : other = id
    · rw [here, Function.update_self] at at_
      exact checked request row (Option.some_inj.mp at_)
    · rw [Function.update_of_ne here] at at_
      exact (sound.checked other request row at_).carried carries
  present := by
    intro other call newUid at_ named
    change Function.update state.calls id (some next) other = _ at at_
    by_cases here : other = id
    · rw [here, Function.update_self, Option.some_inj] at at_
      exact present newUid (at_ ▸ named)
    · rw [Function.update_of_ne here] at at_
      rcases List.mem_map.mp (sound.present other call newUid at_ named) with ⟨user, member, same⟩
      exact List.mem_map.mpr ⟨user, carries.users user member, same⟩
  taken := by
    intro user member
    rcases sound.taken user member with ⟨stored, known, named, taken⟩
    rcases carries.invites stored known with ⟨later, laterIn, laterNamed, workspace, email, _⟩
    rcases taken.carried carries with ⟨other, here, key⟩
    refine ⟨later, laterIn, laterNamed.trans named, other, here, ?_⟩
    rw [key, workspace, email]
  past := by
    intro user member
    rcases sound.past user member with ⟨call, at_, isPast⟩
    by_cases here : user.call = id
    · refine ⟨next, ?_, past call (here ▸ at_) isPast⟩
      change Function.update state.calls id (some next) user.call = some next
      rw [here, Function.update_self]
    · refine ⟨call, ?_, isPast⟩
      exact (Function.update_of_ne here ..).trans at_
  once := sound.once

theorem log (sound : state.Sound) {user : CreatedUser}
    (new : user.inviteId ∉ state.created.map CreatedUser.inviteId)
    (taken : ∃ stored ∈ state.tables.invites, stored.id = user.inviteId ∧
      EmailTaken state.tables stored)
    (past : ∃ call, state.calls user.call = some call ∧ call.isPast = true) :
    Sound { state with created := state.created ++ [user] } where
  checked := sound.checked
  present := sound.present
  taken := by
    intro other member
    rcases List.mem_append.mp member with old | last
    · exact sound.taken other old
    · exact List.mem_singleton.mp last ▸ taken
  past := by
    intro other member
    rcases List.mem_append.mp member with old | last
    · exact sound.past other old
    · exact List.mem_singleton.mp last ▸ past
  once := by
    change ((state.created ++ [user]).map CreatedUser.inviteId).Nodup
    rw [List.map_append, List.map_singleton]
    exact List.nodup_append_comm.mp (List.nodup_cons.mpr ⟨new, sound.once⟩)

theorem free_of_enrolled (sound : state.Sound) {request : AcceptRequest} {row : InviteRow Digest}
    {newUid : UUID} (at_ : state.calls id = some (.checked request row))
    (enrolled : Enrolled state.tables (InviteTables.newUser request row newUid) after) :
    ¬ EmailTaken state.tables row ∧ row.id ∉ state.created.map CreatedUser.inviteId := by
  have free : ¬ EmailTaken state.tables row := by
    rintro ⟨user, member, key⟩
    exact enrolled.free user member key
  refine ⟨free, fun logged => ?_⟩
  rcases List.mem_map.mp logged with ⟨user, member, named⟩
  rcases sound.taken user member with ⟨stored, known, same, other, here, key⟩
  rcases sound.checked id request row at_ with ⟨own, ownKnown, ownNamed, workspace, email, _⟩
  have one : stored = own := state.tables.invitesById.eq_of_mem known ownKnown
    (congrArg some (same.trans named)) (congrArg some ownNamed)
  subst one
  exact free ⟨other, here, by rw [key, workspace, email]⟩

end Sound

theorem past_of_uncut (sound : state.Sound) (uncut : Uncut state (.perform id statement))
    (at_ : state.calls id = some call) (performed : Performed state.tables call statement after next)
    (past : call.isPast = true) : next.isPast = true := by
  cases performed with
  | idle => exact past
  | failed error early =>
    rcases early past with ⟨notReturned, ⟨kind, rfl⟩ | ⟨rfl, newUid, cid, rest, rfl, refused⟩⟩
    · rcases uncut call at_ past with ⟨newUid, same⟩
      exact False.elim (notReturned newUid same)
    · exact False.elim (refused ⟨uncut newUid cid rest at_, sound.present id _ newUid at_ rfl⟩)
  | inserted request row newUid enrolled => rfl
  | marked row newUid now => exact isPast_nextChannel _
  | joined newUid cid rest joined => exact isPast_nextChannel rest

theorem Sound.begin_ (sound : state.Sound) [DecidableEq Digest] (sha256 : String -> Digest)
    (request : AcceptRequest) (clock : Instant) (new : state.calls id = none) : Sound { state with
      calls := Function.update state.calls id (some (checkInvite sha256 state.tables request clock)) } := by
  refine sound.move (Carries.refl state.tables) ?_ ?_ ?_
  · intro other row same
    unfold checkInvite at same
    split at same
    · cases same
    · rename_i found known
      split at same
      · cases same
      · rename_i unrevoked
        split at same
        · cases same
        · split at same
          · cases same
          · cases same
            exact ⟨row, (lookup_sound known).1, rfl, rfl, rfl, Or.inl (not_not.mp unrevoked)⟩
  · intro call at_
    cases new.symm.trans at_
  · intro newUid named
    unfold checkInvite at named
    split at named
    · cases named
    · split at named
      · cases named
      · split at named
        · cases named
        · split at named <;> cases named

def performed (state : Acceptances Digest lower) (id : AcceptId) (call : Accepting Digest)
    (after : InviteTables Digest lower) (next : Accepting Digest) : Acceptances Digest lower where
  tables := after
  calls := Function.update state.calls id (some next)
  created := state.created ++ noteCreated id call next

theorem Sound.perform (sound : state.Sound) (at_ : state.calls id = some call)
    (performed : Performed state.tables call statement after next)
    (past : call.isPast = true -> next.isPast = true) : (state.performed id call after next).Sound := by
  have pasts : ∀ other, state.calls id = some other -> other.isPast = true -> next.isPast = true := by
    intro other here
    cases at_.symm.trans here
    exact past
  have carries := performed.carries
  unfold Acceptances.performed
  cases performed with
  | idle =>
    have silent : noteCreated id call call = [] := by cases call <;> rfl
    rw [silent, List.append_nil]
    refine sound.move carries ?_ pasts ?_
    · intro request row same
      exact sound.checked id request row (same ▸ at_)
    · intro newUid named
      exact sound.present id call newUid at_ named
  | failed error =>
    have silent : noteCreated id call (.failed error) = [] := by cases call <;> rfl
    rw [silent, List.append_nil]
    exact sound.move carries (fun _ _ same => nomatch same) pasts (fun _ named => nomatch named)
  | inserted request row newUid enrolled =>
    let next : Accepting Digest := .inserted row newUid
    have unchecked : ∀ request other, next = .checked request other -> Snapshot after other :=
      fun _ _ same => nomatch same
    have present : ∀ other, next.newUser = some other ->
        other ∈ after.users.map InvitedUser.id := by
      intro other named
      cases named
      rw [enrolled.users, List.map_append]
      exact List.mem_append_right _ (List.mem_singleton_self _)
    have moved := sound.move carries unchecked pasts present
    have free := sound.free_of_enrolled at_ enrolled
    rcases sound.checked id request row at_ with ⟨stored, known, named, workspace, email, _⟩
    refine @log _ _ _ moved ⟨id, row.id, newUid⟩ free.2 ?_ ⟨_, Function.update_self .., rfl⟩
    refine ⟨stored, enrolled.invites ▸ known, named, InviteTables.newUser request row newUid, ?_, ?_⟩
    · rw [enrolled.users]
      exact List.mem_append_right _ (List.mem_singleton_self _)
    · rw [workspace, email]
      rfl
  | marked row newUid now =>
    change Sound { state with
      tables := state.tables.markAccepted row.id now
      calls := Function.update state.calls id (some (nextChannel newUid (row.channelIds.getD [])))
      created := state.created ++ [] }
    rw [List.append_nil]
    refine sound.move carries ?_ pasts ?_
    · intro request other same
      cases channels : row.channelIds.getD [] <;> rw [channels] at same <;> cases same
    · intro other named
      have mine := sound.present id _ newUid at_ rfl
      cases channels : row.channelIds.getD [] with
      | nil =>
        rw [channels] at named
        cases named
      | cons cid rest =>
        rw [channels] at named
        cases named
        exact mine
  | joined newUid cid rest joined =>
    change Sound { state with
      tables := after
      calls := Function.update state.calls id (some (nextChannel newUid rest))
      created := state.created ++ [] }
    rw [List.append_nil]
    refine sound.move carries ?_ pasts ?_
    · intro request other same
      cases rest <;> cases same
    · intro other named
      rw [(carries_of_joinChannel joined).2]
      have mine := sound.present id _ newUid at_ rfl
      cases rest with
      | nil => cases named
      | cons next others =>
        cases named
        exact mine

theorem Sound.revoke (sound : state.Sound) {inviteId : UUID} {now : Instant}
    (late : ∀ id request row, state.calls id = some (.checked request row) -> row.id = inviteId ->
      EmailTaken state.tables row) :
    Sound { state with tables := state.tables.revokeInvite inviteId now } where
  checked := by
    intro id request row at_
    rcases sound.checked id request row at_ with ⟨stored, known, named, workspace, email, open_⟩
    refine ⟨_, List.mem_map_of_mem known, ?_⟩
    split
    · rename_i hit
      exact ⟨named, workspace, email, Or.inr (late id request row at_ (named.symm.trans hit.1))⟩
    · exact ⟨named, workspace, email, open_⟩
  present := sound.present
  taken := by
    intro user member
    rcases sound.taken user member with ⟨stored, known, named, taken⟩
    refine ⟨_, List.mem_map_of_mem known, ?_⟩
    split <;> exact ⟨named, taken⟩
  past := sound.past
  once := sound.once

variable [DecidableEq Digest] {sha256 : String -> Digest}

theorem step_perform (at_ : state.calls id = some call) :
    state.step sha256 (.perform id statement) =
      state.performed id call (performStatement state.tables call statement).1
        (performStatement state.tables call statement).2 := by
  simp only [Acceptances.step, at_]
  rfl

theorem Sound.step (sound : state.Sound) {input : InviteInput} (uncut : Uncut state input) :
    (state.step sha256 input).Sound := by
  cases input with
  | begin id request clock =>
    simp only [Acceptances.step]
    split
    · rename_i new
      exact sound.begin_ sha256 request clock new
    · exact sound
  | perform id statement =>
    cases at_ : state.calls id with
    | none =>
      simp only [Acceptances.step, at_]
      exact sound
    | some call =>
      have performed := performed_performStatement state.tables call statement
      rw [step_perform at_]
      exact sound.perform at_ performed (past_of_uncut sound uncut at_ performed)
  | revoke inviteId now => exact sound.revoke uncut

theorem noneAfterRevocation_of_sound (sound : state.Sound) (input : InviteInput) :
    NoneAfterRevocation sha256 state input := by
  intro user grown row member named
  have grows : state.created ++ [user] ≠ state.created := by
    intro same
    have lengths := congrArg List.length same
    rw [List.length_append, List.length_singleton] at lengths
    omega
  cases input with
  | begin id request clock =>
    simp only [Acceptances.step] at grown
    split at grown <;> exact absurd grown.symm grows
  | revoke inviteId now => exact absurd grown.symm grows
  | perform id statement =>
    cases at_ : state.calls id with
    | none =>
      simp only [Acceptances.step, at_] at grown
      exact absurd grown.symm grows
    | some call =>
      have performed := performed_performStatement state.tables call statement
      rw [step_perform at_] at grown
      have noted := List.append_cancel_left grown
      generalize (performStatement state.tables call statement).1 = after,
        (performStatement state.tables call statement).2 = next at performed noted
      cases performed with
      | idle => cases call <;> cases noted
      | failed error => cases call <;> cases noted
      | marked row newUid now => cases noted
      | joined newUid cid rest joined => cases noted
      | inserted request read newUid enrolled =>
        cases noted
        rcases sound.checked id request read at_ with ⟨stored, known, same, _, _, open_⟩
        have one : row = stored := state.tables.invitesById.eq_of_mem member known
          (congrArg some named) (congrArg some same)
        rw [one]
        exact open_.resolve_right (sound.free_of_enrolled at_ enrolled).1

/-! ## The run without a call -/

structure AgreeBut (id : AcceptId) (state beside : Acceptances Digest lower) : Prop where
  tables : state.tables = beside.tables
  calls : ∀ other ≠ id, state.calls other = beside.calls other

def PastOrAgree (id : AcceptId) (state beside : Acceptances Digest lower) : Prop :=
  state.Sound ∧ ((∃ call, state.calls id = some call ∧ call.isPast = true) ∨
    AgreeBut id state beside)

variable {input : InviteInput}

theorem calls_step_ne (apart : input.IsOf id = false) :
    (state.step sha256 input).calls id = state.calls id := by
  cases input with
  | begin other request clock =>
    simp only [Acceptances.step]
    split
    · exact Function.update_of_ne (Ne.symm (of_decide_eq_false apart)) ..
    · rfl
  | perform other statement =>
    cases at_ : state.calls other with
    | none => simp only [Acceptances.step, at_]
    | some call =>
      rw [step_perform at_]
      exact Function.update_of_ne (Ne.symm (of_decide_eq_false apart)) ..
  | revoke inviteId now => rfl

omit [DecidableEq Digest] in
theorem AgreeBut.update {beside : Acceptances Digest lower} (agree : AgreeBut id state beside)
    (other : AcceptId) (after : InviteTables Digest lower) (next : Accepting Digest)
    (created createdToo : List CreatedUser) :
    AgreeBut id { tables := after, calls := Function.update state.calls other (some next), created }
      { tables := after, calls := Function.update beside.calls other (some next), created := createdToo } where
  tables := rfl
  calls := by
    intro third apart
    change Function.update state.calls other (some next) third =
      Function.update beside.calls other (some next) third
    by_cases here : third = other
    · rw [here, Function.update_self, Function.update_self]
    · rw [Function.update_of_ne here, Function.update_of_ne here]
      exact agree.calls third apart

theorem AgreeBut.step {beside : Acceptances Digest lower} (agree : AgreeBut id state beside)
    {input : InviteInput} (apart : input.IsOf id = false) :
    AgreeBut id (state.step sha256 input) (beside.step sha256 input) := by
  cases input with
  | begin other request clock =>
    have same := agree.calls other (of_decide_eq_false apart)
    cases at_ : state.calls other with
    | none =>
      simp only [Acceptances.step, at_, ← same, ← agree.tables]
      exact agree.update other _ _ _ _
    | some call =>
      simp only [Acceptances.step, at_, ← same]
      exact agree
  | perform other statement =>
    have same := agree.calls other (of_decide_eq_false apart)
    cases at_ : state.calls other with
    | none =>
      simp only [Acceptances.step, at_, ← same]
      exact agree
    | some call =>
      rw [step_perform at_, step_perform (same.symm.trans at_), ← agree.tables]
      exact agree.update other _ _ _ _
  | revoke inviteId now =>
    exact ⟨congrArg (InviteTables.revokeInvite · inviteId now) agree.tables, agree.calls⟩

theorem AgreeBut.silent {beside : Acceptances Digest lower} (agree : AgreeBut id state beside)
    (own : input.IsOf id = true) :
    (∃ call, (state.step sha256 input).calls id = some call ∧ call.isPast = true) ∨
      (∃ call, state.calls id = some call ∧ call.isPast = true) ∨
      AgreeBut id (state.step sha256 input) beside := by
  cases input with
  | revoke inviteId now => cases own
  | begin other request clock =>
    refine Or.inr (Or.inr ?_)
    have here := of_decide_eq_true own
    subst here
    simp only [Acceptances.step]
    split
    · refine ⟨agree.tables, fun third apart => ?_⟩
      exact (Function.update_of_ne apart ..).trans (agree.calls third apart)
    · exact agree
  | perform other statement =>
    have here := of_decide_eq_true own
    subst here
    cases at_ : state.calls other with
    | none =>
      refine Or.inr (Or.inr ?_)
      simp only [Acceptances.step, at_]
      exact agree
    | some call =>
      have performed := performed_performStatement state.tables call statement
      rw [step_perform at_]
      generalize (performStatement state.tables call statement).1 = after,
        (performStatement state.tables call statement).2 = next at performed
      have elsewhere : ∀ third ≠ other,
          (state.performed other call after next).calls third = beside.calls third :=
        fun third apart => (Function.update_of_ne apart ..).trans (agree.calls third apart)
      cases performed with
      | idle => exact Or.inr (Or.inr ⟨agree.tables, elsewhere⟩)
      | failed error => exact Or.inr (Or.inr ⟨agree.tables, elsewhere⟩)
      | inserted request row newUid enrolled => exact Or.inl ⟨_, Function.update_self .., rfl⟩
      | marked row newUid now => exact Or.inr (Or.inl ⟨_, rfl, rfl⟩)
      | joined newUid cid rest joined => exact Or.inr (Or.inl ⟨_, rfl, rfl⟩)

theorem past_step (sound : state.Sound) (uncut : Uncut state input)
    (past : ∃ call, state.calls id = some call ∧ call.isPast = true) :
    ∃ call, (state.step sha256 input).calls id = some call ∧ call.isPast = true := by
  rcases past with ⟨call, at_, isPast⟩
  cases own : input.IsOf id with
  | false => exact ⟨call, (calls_step_ne own).trans at_, isPast⟩
  | true =>
    cases input with
    | revoke inviteId now => cases own
    | begin other request clock =>
      have here := of_decide_eq_true own
      subst here
      refine ⟨call, ?_, isPast⟩
      simp only [Acceptances.step, at_]
    | perform other statement =>
      have here := of_decide_eq_true own
      subst here
      have performed := performed_performStatement state.tables call statement
      rw [step_perform at_]
      exact ⟨_, Function.update_self .., past_of_uncut sound uncut at_ performed isPast⟩

end Acceptances

end Invariants

section Runs

variable [DecidableEq Digest] (sha256 : String -> Digest)

theorem pastOrAgree_run (start : InviteTables Digest lower) (id : AcceptId) (inputs : List InviteInput)
    (uncut : (inviteMachine sha256 start).EveryStep Uncut inputs) :
    Acceptances.PastOrAgree id ((inviteMachine sha256 start).after inputs)
      ((inviteMachine sha256 start).after (inputs.filter fun input => !input.IsOf id)) := by
  refine Machine.without_run (inviteMachine sha256 start) (Acceptances.PastOrAgree id)
    (InviteInput.IsOf id) ?_ ?_ ?_ inputs uncut
  · refine ⟨⟨?_, ?_, ?_, ?_, List.nodup_nil⟩, Or.inr ⟨rfl, fun _ _ => rfl⟩⟩
    · exact fun _ _ _ at_ => nomatch at_
    · exact fun _ _ _ at_ => nomatch at_
    · exact fun _ absent => nomatch absent
    · exact fun _ absent => nomatch absent
  · rintro state beside input ⟨sound, stands⟩ uncut apart
    refine ⟨sound.step uncut, ?_⟩
    rcases stands with past | agree
    · exact Or.inl (Acceptances.past_step sound uncut past)
    · exact Or.inr (agree.step apart)
  · rintro state beside input ⟨sound, stands⟩ uncut own
    refine ⟨sound.step uncut, ?_⟩
    rcases stands with past | agree
    · exact Or.inl (Acceptances.past_step sound uncut past)
    · rcases agree.silent own with now | past | agree
      · exact Or.inl now
      · exact Or.inl (Acceptances.past_step sound uncut past)
      · exact Or.inr agree

/-- While nothing cuts in behind the checks of an acceptance, an invite makes one user
at most and none once it is revoked, and a call that fails leaves no trace. -/
theorem accepted_run (start : InviteTables Digest lower) (inputs : List InviteInput)
    (uncut : (inviteMachine sha256 start).EveryStep Uncut inputs) :
    (inviteMachine sha256 start).EveryState OneUserPerInvite inputs ∧
      (inviteMachine sha256 start).EveryStep (NoneAfterRevocation sha256) inputs ∧
      ∀ before rest, inputs = before ++ rest -> LeavesNoTrace sha256 start before := by
  have until_ : ∀ before rest, inputs = before ++ rest ->
      (inviteMachine sha256 start).EveryStep Uncut before := by
    intro before rest split earlier input later same
    refine uncut earlier input (later ++ rest) ?_
    rw [split, same, List.append_assoc, List.cons_append]
  have sound : ∀ before rest, inputs = before ++ rest ->
      ((inviteMachine sha256 start).after before).Sound := by
    intro before rest split
    exact (pastOrAgree_run sha256 start 0 before (until_ before rest split)).1
  refine ⟨?_, ?_, ?_⟩
  · exact fun before rest split => (sound before rest split).once
  · intro before input rest split
    exact Acceptances.noneAfterRevocation_of_sound (sound before (input :: rest) split) input
  · intro before rest split id error failed
    have stands := pastOrAgree_run sha256 start id before (until_ before rest split)
    refine ⟨fun user member own => ?_, ?_⟩
    · rcases stands.1.past user member with ⟨call, at_, past⟩
      rw [own, failed] at at_
      cases at_
      cases past
    · rcases stands.2 with ⟨call, at_, past⟩ | agree
      · rw [failed] at at_
        cases at_
        cases past
      · exact agree.tables

def oneInvite : InviteTables String id where
  invites := [{
    id := 1
    workspaceId := 10
    email := "ann@example.org"
    role := "member"
    tokenHash := "secret"
    channelIds := some [20]
    expiresAt := 100 }]
  channels := [20]
  invitesById := by decide
  invitesByToken := by decide
  usersById := by decide
  usersByEmail := by decide
  usersByExternalId := by decide

def askedTwice : List InviteInput :=
  [.begin 0 { token := "secret", displayName := "Ann" } 5, .begin 1 { token := "secret", displayName := "A." } 6,
    .perform 0 (.insert 30), .perform 1 (.insert 31), .perform 0 (.mark 7), .perform 0 .join]

/-- The second call fails, and the first one makes the only user. -/
theorem accepted_run_askedTwice :
    (inviteMachine (fun token => token) oneInvite).EveryState OneUserPerInvite askedTwice := by
  refine (accepted_run (fun token => token) oneInvite askedTwice ?_).1
  refine (Machine.everyStep_iff_stepsFrom _ _ _).mpr ⟨trivial, trivial, trivial, trivial, trivial, ?_, trivial⟩
  intro newUid cid rest at_
  have joining : (newUid, cid, rest) = (30, 20, []) := by
    have here : ((inviteMachine (fun token => token) oneInvite).after (askedTwice.take 5)).calls 0 =
        some (.joining 30 20 []) := by decide
    cases here.symm.trans at_
    rfl
  cases joining
  decide

/-- The statement which marks the invite fails: the user stays, and a second call
finds the address taken. -/
def markFails : List InviteInput :=
  [.begin 0 { token := "secret", displayName := "Ann" } 5, .perform 0 (.insert 30),
    .perform 0 (.fail "ConnectionDoesNotExistError")]

/-- The invite is revoked between the check and the insertion. -/
def revokedBeforeInsert : List InviteInput :=
  [.begin 0 { token := "secret", displayName := "Ann" } 5, .revoke 1 6]

theorem accept_not_atomic : Not (LeavesNoTrace (fun token => token) oneInvite markFails) ∧
      Not ((inviteMachine (fun token => token) oneInvite).EveryStep
        (NoneAfterRevocation fun token => token) (revokedBeforeInsert ++ [.perform 0 (.insert 30)])) := by
  constructor
  · intro traceless
    have created : ((inviteMachine (fun token => token) oneInvite).after markFails).created =
        [⟨0, 1, 30⟩] := rfl
    have own := (traceless 0 (.raised "ConnectionDoesNotExistError") (by decide)).1 ⟨0, 1, 30⟩
    exact own (created ▸ List.mem_singleton_self _) rfl
  · intro every
    have unrevoked := every revokedBeforeInsert _ [] rfl ⟨0, 1, 30⟩ rfl
      { id := 1, workspaceId := 10, email := "ann@example.org", role := "member", tokenHash := "secret",
        channelIds := some [20], expiresAt := 100, revokedAt := some 6 } (by decide) rfl
    cases unrevoked

end Runs

end Auth
end BreadMind
