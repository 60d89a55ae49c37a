import BreadMind.Messenger.Acl
import BreadMind.Messenger.MessageService

namespace BreadMind
namespace Messenger

open Execution

/-!
# The message endpoints

An endpoint is run here on its own, from the authorisation of the caller to
the response.  Besides the database it uses two kinds of Redis keys: the
records of `Idempotency-Key` headers and the pointers which remember the
message a client has sent under its own identifier.
-/

structure MessageResp where
  id : UUID
  workspaceId : UUID
  channelId : UUID
  authorId : UUID
  parentId : Option UUID
  kind : MessageKind
  text : Option String
  blocks : List Json
  createdAt : Timestamp
  editedAt : Option Timestamp
  deletedAt : Option Timestamp

def toResp (row : MessageRow) : MessageResp where
  id := row.id
  workspaceId := row.workspaceId
  channelId := row.channelId
  authorId := row.authorId
  parentId := row.parentId
  kind := row.kind
  text := row.text
  blocks := row.blocks
  createdAt := row.createdAt
  editedAt := row.editedAt
  deletedAt := row.deletedAt

inductive Record where
  | inProgress (requestHash : String)
  | completed (status : Nat) (body : MessageResp) (requestHash : String)

structure Redis where
  idem : String -> Option Record := fun _ => none
  /-- Keyed by the sender, the channel and the client's message identifier. -/
  dedup : UUID × UUID × UUID -> Option UUID := fun _ => none

inductive Existing where
  | cached (body : MessageResp)
  /-- `IN_PROGRESS_SENTINEL`. -/
  | inProgress

namespace Redis

/-- What `get_or_lock` makes of a record; the text is that of an `IdempotencyConflict`. -/
def readRecord (key requestHash : String) : Record -> Except String Existing
  | .inProgress held =>
    if held ≠ requestHash then .error "hash mismatch on in-progress key" else .ok .inProgress
  | .completed _ body held =>
    if held ≠ requestHash then
      .error ("key " ++ key ++ " previously used with different request body")
    else .ok (.cached body)

variable (redis : Redis)

/-- `SET key record EX ttl`. -/
def setIdem (key : String) (record : Record) : Redis :=
  { redis with idem := Function.update redis.idem key (some record) }

/-- `get_or_lock`: nothing is returned for a newly acquired key.  Alone, the
`SET NX` after a missing key always succeeds. -/
def getOrLock (key requestHash : String) : Except String (Option Existing) × Redis :=
  match redis.idem key with
  | some record =>
    match readRecord key requestHash record with
    | .ok existing => (.ok (some existing), redis)
    | .error detail => (.error detail, redis)
  | none => (.ok none, redis.setIdem key (.inProgress requestHash))

def put (key requestHash : String) (status : Nat) (body : MessageResp) : Redis :=
  redis.setIdem key (.completed status body requestHash)

def remember (senderId channelId clientMsgId messageId : UUID) : Redis :=
  { redis with
    dedup := Function.update redis.dedup (senderId, channelId, clientMsgId) (some messageId) }

end Redis

/-- `app.state.redis` need not be configured. -/
structure World where
  db : Database
  redis : Option Redis

abbrev Reply (Value : Type) := Except MessengerError Value × World

structure CurrentUser where
  id : UUID
  workspaceId : UUID
  role : Role
  email : String
  kind : UserKind

structure WorkspaceContext where
  workspaceId : UUID
  user : CurrentUser

/-- The user named by the bearer token, or why there is none, and the
workspace in the path. -/
structure Caller where
  token : Except String UUID
  wid : UUID

variable (db : Database)

def getCurrentUser (token : Except String UUID) : Except MessengerError CurrentUser :=
  match token with
  | .error detail => .error (.unauthorized detail)
  | .ok userId =>
    match db.user userId with
    | none => .error (.unauthorized "user not found")
    | some row =>
      if row.deactivatedAt ≠ none then .error (.unauthorized "user deactivated")
      else .ok {
        id := row.id
        workspaceId := row.workspaceId
        role := row.role
        email := row.email
        kind := row.kind }

variable (caller : Caller)

def getWorkspaceContext : Except MessengerError WorkspaceContext :=
  match getCurrentUser db caller.token with
  | .error failure => .error failure
  | .ok user =>
    if caller.wid ≠ user.workspaceId then
      .error (.forbidden "token does not grant access to this workspace")
    else .ok { workspaceId := caller.wid, user }

structure MessagePostReq where
  text : Option String := none
  blocks : Option (List Json) := none
  parentId : Option UUID := none
  clientMsgId : Option UUID := none

structure PostRequest where
  cid : UUID
  path : String
  body : MessagePostReq
  idempotencyKey : Option String := none
  fresh : Fresh

/-- `if idempotency_key`: an empty header counts as none. -/
def PostRequest.key (request : PostRequest) : Option String :=
  request.idempotencyKey.filter fun key => key ≠ ""

def hashRequest (sha256 : String -> String) (method path body : String) : String :=
  sha256 (method ++ "\x00" ++ path ++ "\x00" ++ body)

section Post

-- The digest, and the dump of a request body as JSON with sorted keys.
variable (sha256 : String -> String) (dumps : MessagePostReq -> String)

def PostRequest.rhash (request : PostRequest) : String :=
  hashRequest sha256 "POST" request.path (dumps request.body)

/-- How the idempotency store lets a request go on. -/
inductive Admission where
  | refused (failure : MessengerError)
  | replayed (body : MessageResp)
  | proceeds (redis : Option Redis)

variable (world : World)

def askStore (request : PostRequest) : Admission :=
  match request.key, world.redis with
  | none, redis => .proceeds redis
  | some _, none => .refused (.raised "AttributeError")
  | some key, some redis =>
    match redis.getOrLock key (request.rhash sha256 dumps) with
    | (.error detail, _) => .refused (.conflict detail)
    | (.ok (some (.cached body)), _) => .replayed body
    -- A key in progress is not told apart from one that was acquired.
    | (.ok _, next) => .proceeds (some next)

def pointed (request : PostRequest) (sender : UUID) : Option MessageRow :=
  match world.redis, request.body.clientMsgId with
  | some redis, some clientMsgId =>
    match redis.dedup (sender, request.cid, clientMsgId) with
    | some existingId =>
      -- `NotFound` means a stale pointer.
      (getMessage world.db request.cid existingId).toOption
    | none => none
  | _, _ => none

def claimed (db : Database) (request : PostRequest) (workspaceId : UUID) : Option MessageRow :=
  match request.body.clientMsgId with
  | none => none
  | some clientMsgId => getMessageByClientMsgId db workspaceId clientMsgId

def insertOrFind (db : Database) (request : PostRequest) (ctx : WorkspaceContext) :
    Except MessengerError (MessageRow × Database) :=
  match postMessage db ctx.workspaceId request.cid ctx.user.id request.body.text
      request.body.blocks request.body.parentId request.body.clientMsgId .text request.fresh with
  | .ok posted => .ok posted
  | .error .uniqueViolation =>
    match claimed db request ctx.workspaceId with
    | none => .error .uniqueViolation
    | some existing => .ok (existing, db)
  | .error failure => .error failure

def rememberMessage (redis : Option Redis) (request : PostRequest) (sender : UUID) (row : MessageRow) :
    Option Redis :=
  match request.body.clientMsgId with
  | some clientMsgId => redis.map fun redis => redis.remember sender request.cid clientMsgId row.id
  | none => redis

def storeResponse (redis : Option Redis) (request : PostRequest) (resp : MessageResp) : Option Redis :=
  match request.key with
  | some key => redis.map fun redis => redis.put key (request.rhash sha256 dumps) 201 resp
  | none => redis

def postOrFind (request : PostRequest) (ctx : WorkspaceContext) : Reply MessageResp :=
  match pointed world request ctx.user.id with
  | some existing => (.ok (toResp existing), world)
  | none =>
    match insertOrFind world.db request ctx with
    | .ok (row, db) =>
      (.ok (toResp row), {
        db
        redis := storeResponse sha256 dumps (rememberMessage world.redis request ctx.user.id row)
          request (toResp row) })
    | .error failure => (.error failure, world)

def postMessageEndpoint (caller : Caller) (request : PostRequest) (world : World) :
    Reply MessageResp :=
  match getWorkspaceContext world.db caller with
  | .error failure => (.error failure, world)
  | .ok ctx =>
    if !canUserPostMessage world.db ctx.user.id request.cid then
      (.error (.forbidden "cannot post in this channel"), world)
    else
      match askStore sha256 dumps world request with
      | .refused failure => (.error failure, world)
      | .replayed body => (.ok body, world)
      | .proceeds redis => postOrFind sha256 dumps { world with redis } request ctx

end Post

structure MessageListResp where
  messages : List MessageResp
  hasMore : Bool
  limit : Nat

/-- `limit: int = Query(50, ge=1, le=200)`. -/
def limitAllowed (limit : Nat) : Bool :=
  1 ≤ limit && limit ≤ 200

variable (cid : UUID)

def listMessagesEndpoint
    (before after : Option Timestamp) (limit : Nat) : Except MessengerError MessageListResp :=
  match getWorkspaceContext db caller with
  | .error failure => .error failure
  | .ok _ =>
    if !limitAllowed limit then .error (.requestValidation "limit")
    else
      let (rows, hasMore) := listMessages db cid before after limit
      .ok { messages := rows.map toResp, hasMore, limit }

def getMessageEndpoint (mid : UUID) : Except MessengerError MessageResp :=
  match getWorkspaceContext db caller with
  | .error failure => .error failure
  | .ok ctx =>
    if !canUserSeeMessage db ctx.user.id mid then .error (.notFound "message" mid.text)
    else (getMessage db cid mid).map toResp

structure MessageEditReq where
  text : Option String := none
  blocks : Option (List Json) := none

def patchMessage (mid : UUID) (body : MessageEditReq)
    (outboxId : UUID) (now clock : Timestamp) : Except MessengerError (MessageResp × Database) :=
  match getWorkspaceContext db caller with
  | .error failure => .error failure
  | .ok ctx =>
    if !canUserEditMessage db ctx.user.id mid then .error (.forbidden "cannot edit this message")
    else
      match editMessage db cid mid body.text body.blocks ctx.user.id outboxId now clock with
      | .ok (row, after) => .ok (toResp row, after)
      | .error failure => .error failure

def deleteMessageEndpoint (mid outboxId : UUID)
    (now clock : Timestamp) : Except MessengerError Database :=
  match getWorkspaceContext db caller with
  | .error failure => .error failure
  | .ok ctx =>
    if !canUserEditMessage db ctx.user.id mid then .error (.forbidden "cannot delete this message")
    else deleteMessage db cid mid outboxId now clock

/-- The caller is an active user of the workspace in the path. -/
def Authorised (user wid : UUID) : Prop :=
  ∃ ctx, getWorkspaceContext db { token := .ok user, wid } = .ok ctx

theorem getWorkspaceContext_ok {db : Database} {user wid : UUID} {ctx : WorkspaceContext}
    (authorised : getWorkspaceContext db { token := .ok user, wid } = .ok ctx) :
    ctx.user.id = user ∧ ctx.workspaceId = wid ∧
      ∃ role, getUserRole db user = some (role, wid) := by
  unfold getWorkspaceContext getCurrentUser at authorised
  dsimp only at authorised
  cases found : db.user user with
  | none =>
    rw [found] at authorised
    cases authorised
  | some row =>
    rw [found] at authorised
    dsimp only at authorised
    by_cases active : row.deactivatedAt = none
    · rw [if_neg (not_not.mpr active)] at authorised
      dsimp only at authorised
      by_cases same : wid = row.workspaceId
      · rw [if_neg (not_not.mpr same)] at authorised
        cases authorised
        exact ⟨(Database.user_eq_some.mp found).2, rfl, row.role,
          getUserRole_eq_some.mpr ⟨row, found, active, rfl, same.symm⟩⟩
      · rw [if_pos same] at authorised
        cases authorised
    · rw [if_pos active] at authorised
      cases authorised

theorem postMessageEndpoint_of_allowed (sha256 : String -> String) (dumps : MessagePostReq -> String)
    {caller : Caller} {request : PostRequest} {world : World} {ctx : WorkspaceContext}
    (authorised : getWorkspaceContext world.db caller = .ok ctx)
    (posts : canUserPostMessage world.db ctx.user.id request.cid = true) :
    postMessageEndpoint sha256 dumps caller request world =
      match askStore sha256 dumps world request with
      | .refused failure => (.error failure, world)
      | .replayed body => (.ok body, world)
      | .proceeds redis => postOrFind sha256 dumps { world with redis } request ctx := by
  unfold postMessageEndpoint
  rw [authorised]
  dsimp only
  rw [posts, Bool.not_true, if_neg Bool.false_ne_true]

/-! ## What a post can do -/

section Outcome

variable {db after : Database} {request : PostRequest} {ctx : WorkspaceContext} {row : MessageRow}

def PostRequest.message (request : PostRequest) (db : Database) (ctx : WorkspaceContext) : StoredMessage :=
  newMessage db ctx.workspaceId request.cid ctx.user.id request.body.text request.body.blocks
    request.body.parentId request.body.clientMsgId .text request.fresh

def PostRequest.blank (request : PostRequest) : Bool :=
  isBlank request.body.text request.body.blocks

theorem insertOrFind_of_claimed (found : claimed db request ctx.workspaceId = some row)
    (present : request.blank = false) : insertOrFind db request ctx = .ok (row, db) := by
  unfold claimed at found
  split at found
  · cases found
  · rename_i clientMsgId given
    unfold insertOrFind claimed
    rw [given, postMessage_of_claimed found present]
    dsimp only
    rw [found]

/-- Either the message with the client identifier is returned, or a new one
is inserted because there was none. -/
theorem insertOrFind_ok (handled : insertOrFind db request ctx = .ok (row, after)) :
    request.blank = false ∧ ((claimed db request ctx.workspaceId = some row ∧ after = db) ∨
        (claimed db request ctx.workspaceId = none ∧ row = (request.message db ctx).toMessageRow ∧
          Posted db (request.message db ctx) request.fresh.outboxId after)) := by
  unfold insertOrFind at handled
  cases outcome : postMessage db ctx.workspaceId request.cid ctx.user.id request.body.text
      request.body.blocks request.body.parentId request.body.clientMsgId .text request.fresh with
  | ok posted =>
    rw [outcome] at handled
    cases handled
    have ⟨present, same, effect⟩ := postMessage_ok outcome
    refine ⟨present, .inr ⟨?_, same, effect⟩⟩
    cases found : claimed db request ctx.workspaceId with
    | none => rfl
    | some existing =>
      unfold claimed at found
      split at found
      · cases found
      · rename_i clientMsgId given
        rw [given, postMessage_of_claimed found present] at outcome
        cases outcome
  | error failure =>
    rw [outcome] at handled
    cases failure with
    | uniqueViolation =>
      dsimp only at handled
      split at handled
      · cases handled
      · rename_i existing found
        cases handled
        refine ⟨?_, .inl ⟨found, rfl⟩⟩
        by_contra blank
        unfold postMessage at outcome
        rw [if_pos (Bool.not_eq_false _ ▸ blank)] at outcome
        cases outcome
    | _ => cases handled

inductive PostOutcome (world : World) (request : PostRequest) (ctx : WorkspaceContext) :
    Reply MessageResp -> Prop where
  | points {row : MessageRow} (leads : pointed world request ctx.user.id = some row) :
      PostOutcome world request ctx (.ok (toResp row), world)
  | finds {row : MessageRow} {redis : Option Redis}
      (unpointed : pointed world request ctx.user.id = none) (present : request.blank = false)
      (found : claimed world.db request ctx.workspaceId = some row) :
      PostOutcome world request ctx (.ok (toResp row), { world with redis })
  | posts {after : Database} {redis : Option Redis}
      (unpointed : pointed world request ctx.user.id = none)
      (unclaimed : claimed world.db request ctx.workspaceId = none)
      (posted : Posted world.db (request.message world.db ctx) request.fresh.outboxId after) :
      PostOutcome world request ctx
        (.ok (toResp (request.message world.db ctx).toMessageRow), { db := after, redis })
  | fails {failure : MessengerError} (unpointed : pointed world request ctx.user.id = none)
      (unclaimed : request.blank = false -> claimed world.db request ctx.workspaceId = none) :
      PostOutcome world request ctx (.error failure, world)

theorem postOrFind_outcome (sha256 : String -> String) (dumps : MessagePostReq -> String) (world : World)
    (request : PostRequest) (ctx : WorkspaceContext) :
    PostOutcome world request ctx (postOrFind sha256 dumps world request ctx) := by
  unfold postOrFind
  cases leads : pointed world request ctx.user.id with
  | some existing => exact .points leads
  | none =>
    dsimp only
    cases handled : insertOrFind world.db request ctx with
    | error failure =>
      refine .fails leads ?_
      intro present
      cases found : claimed world.db request ctx.workspaceId with
      | none => rfl
      | some row =>
        rw [insertOrFind_of_claimed found present] at handled
        cases handled
    | ok result =>
      rcases result with ⟨row, after⟩
      rcases insertOrFind_ok handled with ⟨present, ⟨found, same⟩ | ⟨unclaimed, same, posted⟩⟩
      · subst same
        exact .finds leads present found
      · subst same
        exact .posts leads unclaimed posted

end Outcome

theorem channelId_of_pointed {world : World} {request : PostRequest} {sender : UUID} {row : MessageRow}
    (found : pointed world request sender = some row) : row.channelId = request.cid := by
  unfold pointed at found
  split at found
  · split at found
    · rename_i existingId _
      cases read : getMessage world.db request.cid existingId with
      | ok other =>
        rw [read] at found
        cases found
        rcases getMessage_eq_ok.mp read with ⟨stored, _, here, same⟩
        exact same ▸ here
      | error failure =>
        rw [read] at found
        cases found
    · cases found
  · cases found

end Messenger
end BreadMind
