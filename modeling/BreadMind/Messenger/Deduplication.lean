import BreadMind.Messenger.MessageEndpoints

namespace BreadMind
namespace Messenger

open Execution

/-!
# Client message identifiers

A client may give its message an identifier, so that a retry finds the message
sent before.  The Redis pointer is kept for the sender, the channel and the
identifier; the unique index of the table, and the lookup after it was
violated, know only the workspace and the identifier.
-/

variable (sha256 : String -> String) (dumps : MessagePostReq -> String)

def Carried (db : Database) (sender channelId clientMsgId : UUID) : Prop :=
  ∃ row ∈ db.messages, row.authorId = sender ∧ row.channelId = channelId ∧
    row.clientMsgId = some clientMsgId

/-- Exactly one message is added: the one the request asks for. -/
def StoresOne (world after : World) (user : UUID) (request : PostRequest) : Prop :=
  ∃ row, after.db.messages = world.db.messages ++ [row] ∧ row.authorId = user ∧
    row.channelId = request.cid ∧ row.text = request.body.text ∧
    row.clientMsgId = request.body.clientMsgId

/-- The request is refused nowhere and draws an identifier that is not in use. -/
structure Acceptable (world : World) (user wid : UUID) (request : PostRequest) : Prop where
  authorised : Authorised world.db user wid
  allowed : canUserPostMessage world.db user request.cid = true
  admitted : ∀ failure, askStore sha256 dumps world request ≠ .refused failure
  present : request.blank = false
  parent : ∀ parent ∈ request.body.parentId, (world.db.message parent).isSome = true
  unused : world.db.message request.fresh.messageId = none

/-- What the client identifier promises the sender: an acceptable request is
answered, any answer is the sender's message of the channel, and the message
is stored unless the sender has sent it before. -/
def DedupKept (world : World) (user wid : UUID) (request : PostRequest) : Prop :=
  let reply := postMessageEndpoint sha256 dumps { token := .ok user, wid } request world
  ∀ clientMsgId, request.body.clientMsgId = some clientMsgId ->
    (Acceptable sha256 dumps world user wid request -> ∃ resp, reply.1 = .ok resp) ∧
    ∀ resp, reply.1 = .ok resp -> resp.authorId = user ∧ resp.channelId = request.cid ∧
      (¬ Carried world.db user request.cid clientMsgId -> StoresOne world reply.2 user request)

/-- Whatever the identifiers of the request lead to is the sender's. -/
def DedupAgrees (world : World) (user wid : UUID) (request : PostRequest) : Prop :=
  ∀ clientMsgId, request.body.clientMsgId = some clientMsgId ->
    Authorised world.db user wid -> canUserPostMessage world.db user request.cid = true ->
      (∀ body, askStore sha256 dumps world request = .replayed body ->
        body.authorId = user ∧ body.channelId = request.cid ∧
          Carried world.db user request.cid clientMsgId) ∧
      (∀ redis, askStore sha256 dumps world request = .proceeds redis ->
        (∀ row, pointed { world with redis } request user = some row ->
          row.authorId = user ∧ Carried world.db user request.cid clientMsgId) ∧
        (pointed { world with redis } request user = none -> request.blank = false ->
          ∀ row, claimed world.db request wid = some row ->
            row.authorId = user ∧ row.channelId = request.cid))

variable {sha256 dumps}
variable {world : World} {user wid : UUID} {request : PostRequest} {ctx : WorkspaceContext}

theorem carried_of_claimed {clientMsgId : UUID} (given : request.body.clientMsgId = some clientMsgId)
    {row : MessageRow} (found : claimed world.db request wid = some row) (author : row.authorId = user)
    (here : row.channelId = request.cid) : Carried world.db user request.cid clientMsgId := by
  unfold claimed getMessageByClientMsgId at found
  rw [given] at found
  rcases Option.map_eq_some_iff.mp found with ⟨stored, looked, same⟩
  have ⟨member, keyed⟩ := lookup_sound looked
  rcases Option.map_eq_some_iff.mp keyed with ⟨other, has, pair⟩
  refine ⟨stored, member, same ▸ author, same ▸ here, ?_⟩
  rw [has, (Prod.mk_inj.mp pair).2]

variable {redis : Option Redis}

theorem answered_of_acceptable (acceptable : Acceptable sha256 dumps world user wid request)
    (authorised : getWorkspaceContext world.db { token := .ok user, wid } = .ok ctx)
    :
    ∃ resp, (postOrFind sha256 dumps { world with redis } request ctx).1 = .ok resp := by
  have ⟨named, placed, role, known⟩ := getWorkspaceContext_ok authorised
  have insertable : Insertable world.db request.cid ctx.user.id request.body.parentId request.fresh := by
    rcases canUserSeeChannel_eq_true.mp (canUserSeeChannel_of_post acceptable.allowed) with
      ⟨_, chan, _, found, _⟩
    rcases getUserRole_eq_some.mp known with ⟨row, isUser, _⟩
    exact {
      channel := Option.isSome_iff_exists.mpr ⟨chan, found⟩
      author := Option.isSome_iff_exists.mpr ⟨row, named.symm ▸ isUser⟩
      parent := acceptable.parent
      unused := acceptable.unused }
  have handled : ∃ result, insertOrFind world.db request ctx = .ok result := by
    rcases postMessage_of_insertable ctx.workspaceId request.body.clientMsgId .text insertable
      acceptable.present with ⟨posted, succeeds⟩ | ⟨taken, given, row, found⟩
    · refine ⟨posted, ?_⟩
      unfold insertOrFind
      rw [succeeds]
    · refine ⟨(row, world.db), insertOrFind_of_claimed ?_ acceptable.present⟩
      unfold claimed
      rw [given]
      exact found
  rcases handled with ⟨⟨row, after⟩, handled⟩
  unfold postOrFind
  split
  · exact ⟨_, rfl⟩
  · dsimp only
    rw [handled]
    exact ⟨_, rfl⟩

theorem not_storesOne_self : ¬ StoresOne world { world with redis } user request := by
  rintro ⟨row, same, _⟩
  exact List.cons_ne_nil _ _ (List.self_eq_append_right.mp same)

theorem dedupKept_of_refused (failure : MessengerError)
    (refused : (postMessageEndpoint sha256 dumps { token := .ok user, wid } request world).1 =
      .error failure) (unacceptable : ¬ Acceptable sha256 dumps world user wid request) :
    DedupKept sha256 dumps world user wid request := by
  intro clientMsgId given
  refine ⟨fun acceptable => absurd acceptable unacceptable, ?_⟩
  intro resp answered
  cases refused.symm.trans answered

theorem kept_of_outcome {clientMsgId : UUID} {reply : Reply MessageResp}
    (authorised : getWorkspaceContext world.db { token := .ok user, wid } = .ok ctx)
    (given : request.body.clientMsgId = some clientMsgId)
    (outcome : PostOutcome { world with redis } request ctx reply) :
    (∀ resp, reply.1 = .ok resp -> resp.authorId = user ∧ resp.channelId = request.cid ∧
      (¬ Carried world.db user request.cid clientMsgId -> StoresOne world reply.2 user request)) <->
    (∀ row, pointed { world with redis } request user = some row ->
      row.authorId = user ∧ Carried world.db user request.cid clientMsgId) ∧
    (pointed { world with redis } request user = none -> request.blank = false ->
      ∀ row, claimed world.db request wid = some row ->
        row.authorId = user ∧ row.channelId = request.cid) := by
  have ⟨named, placed, _⟩ := getWorkspaceContext_ok authorised
  cases outcome with
  | @points row leads =>
    rw [named] at leads
    constructor
    · intro kept
      have ⟨author, _, stored⟩ := kept (toResp row) rfl
      refine ⟨?_, ?_⟩
      · intro other isOther
        cases leads.symm.trans isOther
        refine ⟨author, ?_⟩
        by_contra uncarried
        exact not_storesOne_self (stored uncarried)
      · intro unpointed
        cases leads.symm.trans unpointed
    · rintro ⟨agrees, _⟩ resp same
      cases same
      have ⟨author, carried⟩ := agrees row leads
      exact ⟨author, channelId_of_pointed leads, fun uncarried => absurd carried uncarried⟩
  | @finds row next unpointed present found =>
    rw [named] at unpointed
    rw [placed] at found
    constructor
    · intro kept
      have ⟨author, here, _⟩ := kept (toResp row) rfl
      refine ⟨?_, ?_⟩
      · intro other isOther
        cases unpointed.symm.trans isOther
      · intro _ _ other isOther
        cases found.symm.trans isOther
        exact ⟨author, here⟩
    · rintro ⟨_, agrees⟩ resp same
      cases same
      have ⟨author, here⟩ := agrees unpointed present row found
      exact ⟨author, here, fun uncarried =>
        absurd (carried_of_claimed given found author here) uncarried⟩
  | posts unpointed unclaimed posted =>
    rw [named] at unpointed
    rw [placed] at unclaimed
    refine iff_of_true ?_ ⟨?_, ?_⟩
    · intro resp same
      cases same
      exact ⟨named, rfl, fun _ => ⟨_, posted.messages, named, rfl, rfl, rfl⟩⟩
    · intro other isOther
      cases unpointed.symm.trans isOther
    · intro _ _ other isOther
      cases unclaimed.symm.trans isOther
  | fails unpointed unclaimed =>
    rw [named] at unpointed
    rw [placed] at unclaimed
    refine iff_of_true (fun resp impossible => by cases impossible) ⟨?_, ?_⟩
    · intro other isOther
      cases unpointed.symm.trans isOther
    · intro _ present other isOther
      cases (unclaimed present).symm.trans isOther

/-- The promise is kept for a request exactly if everything its identifiers
lead to, in Redis and in the workspace, is the sender's own message of the
channel. -/
theorem client_message_ids_exactly (sha256 : String -> String) (dumps : MessagePostReq -> String)
    (world : World) (user wid : UUID) (request : PostRequest) :
    DedupKept sha256 dumps world user wid request <-> DedupAgrees sha256 dumps world user wid request := by
  cases context : getWorkspaceContext world.db { token := .ok user, wid } with
  | error failure =>
    have unauthorised : ¬ Authorised world.db user wid := by
      rintro ⟨ctx, authorised⟩
      cases context.symm.trans authorised
    refine iff_of_true (dedupKept_of_refused failure ?_ ?_) ?_
    · unfold postMessageEndpoint
      rw [context]
    · exact fun acceptable => unauthorised acceptable.authorised
    · exact fun _ _ authorised => absurd authorised unauthorised
  | ok ctx =>
    have named := (getWorkspaceContext_ok context).1
    by_cases posts : canUserPostMessage world.db user request.cid = true
    · have whole := postMessageEndpoint_of_allowed sha256 dumps context (named.symm ▸ posts)
      cases asked : askStore sha256 dumps world request with
      | refused failure =>
        rw [asked] at whole
        refine iff_of_true (dedupKept_of_refused failure (congrArg Prod.fst whole) ?_) ?_
        · exact fun acceptable => acceptable.admitted failure asked
        · intro _ _ _ _
          refine ⟨?_, ?_⟩ <;> · intro _ impossible; cases asked.symm.trans impossible
      | replayed body =>
        rw [asked] at whole
        unfold DedupKept
        dsimp only
        rw [whole]
        constructor
        · intro kept clientMsgId given _ _
          have ⟨author, here, stored⟩ := (kept clientMsgId given).2 body rfl
          refine ⟨?_, ?_⟩
          · intro other same
            cases asked.symm.trans same
            refine ⟨author, here, ?_⟩
            by_contra uncarried
            exact not_storesOne_self (stored uncarried)
          · intro next impossible
            cases asked.symm.trans impossible
        · intro agrees clientMsgId given
          refine ⟨fun _ => ⟨body, rfl⟩, ?_⟩
          intro resp same
          cases same
          have ⟨author, here, carried⟩ :=
            (agrees clientMsgId given ⟨ctx, context⟩ posts).1 body asked
          exact ⟨author, here, fun uncarried => absurd carried uncarried⟩
      | proceeds redis =>
        rw [asked] at whole
        have outcome := postOrFind_outcome sha256 dumps { world with redis } request ctx
        unfold DedupKept
        dsimp only
        rw [whole]
        constructor
        · intro kept clientMsgId given _ _
          refine ⟨?_, ?_⟩
          · intro body impossible
            cases asked.symm.trans impossible
          · intro next same
            cases asked.symm.trans same
            exact (kept_of_outcome context given outcome).mp (kept clientMsgId given).2
        · intro agrees clientMsgId given
          refine ⟨fun acceptable => answered_of_acceptable acceptable context, ?_⟩
          exact (kept_of_outcome context given outcome).mpr
            ((agrees clientMsgId given ⟨ctx, context⟩ posts).2 redis asked)
    · refine iff_of_true
        (dedupKept_of_refused (.forbidden "cannot post in this channel") ?_ ?_) ?_
      · simp only [postMessageEndpoint, context, named, Bool.eq_false_iff.mpr posts, Bool.not_false,
          if_true]
      · exact fun acceptable => posts acceptable.allowed
      · exact fun _ _ _ allowed => absurd allowed posts

def usedIdentifier : World where
  db := {
    users := [ { id := 1, workspaceId := 10, email := "first", kind := .human, role := .member },
      { id := 2, workspaceId := 10, email := "second", kind := .human, role := .member }]
    channels := [
      { id := 5, workspaceId := 10, kind := .publicChannel, postingPolicy := .all, isArchived := false },
      { id := 6, workspaceId := 10, kind := .publicChannel, postingPolicy := .all, isArchived := false }]
    messages := [{
      id := 3, workspaceId := 10, channelId := 5, authorId := 1, parentId := none, kind := .text
      text := some "first", blocks := [], createdAt := 5, editedAt := none, deletedAt := none, tsSeq := 1
      clientMsgId := some 7 }]
    usersById := by decide
    channelsById := by decide
    membersByPair := members_nil
    messagesById := by decide
    messagesBySequence := by decide
    messagesByClientMsgId := by decide }
  redis := some {}

/-- The second user posts in the other channel and is returned the first one's message. -/
theorem clashing_identifier_returned : ¬ ∀ world user wid request,
    DedupKept (fun text => text) (fun _ => "") world user wid request := by
  intro kept
  have promised := kept usedIdentifier 2 10 {
    cid := 6
    path := "/messages"
    body := { text := some "second", clientMsgId := some 7 }
    fresh := { messageId := 4, outboxId := 8, now := 9, clock := 9 } }
  have author := ((promised 7 rfl).2 _ rfl).1
  exact absurd author (by decide)

end Messenger
end BreadMind
