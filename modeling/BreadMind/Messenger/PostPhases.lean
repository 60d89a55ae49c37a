import BreadMind.Messenger.MessageEndpoints

namespace BreadMind
namespace Messenger

/-!
# A post as a sequence of calls

Every call which the endpoint awaits is a step of its own, so that the calls
of several requests may come in any order.  Run alone, the steps of a request
give the reply of the endpoint.
-/

inductive Phase where
  | starting (caller : Caller)
  /-- `GET` of the idempotency key. -/
  | looking (ctx : WorkspaceContext) (key : String)
  /-- `SET NX` of the idempotency key. -/
  | locking (ctx : WorkspaceContext) (key : String)
  /-- `GET` of the dedup pointer. -/
  | deduping (ctx : WorkspaceContext)
  | fetching (ctx : WorkspaceContext) (existingId : UUID)
  /-- `post_message`. -/
  | inserting (ctx : WorkspaceContext)
  /-- The lookup after the unique index was violated. -/
  | resolving (ctx : WorkspaceContext)
  /-- `SET` of the dedup pointer. -/
  | remembering (ctx : WorkspaceContext) (row : MessageRow)
  /-- `SET` of the completed record. -/
  | storing (ctx : WorkspaceContext) (row : MessageRow)
  | done (answer : Except MessengerError MessageResp)

variable (sha256 : String -> String) (dumps : MessagePostReq -> String)

def advance (request : PostRequest) (world : World) : Phase -> Phase × World
  | .starting caller =>
    match getWorkspaceContext world.db caller with
    | .error failure => (.done (.error failure), world)
    | .ok ctx =>
      if !canUserPostMessage world.db ctx.user.id request.cid then
        (.done (.error (.forbidden "cannot post in this channel")), world)
      else
        match request.key with
        | none => (.deduping ctx, world)
        | some key => (.looking ctx key, world)
  | .looking ctx key =>
    match world.redis with
    | none => (.done (.error (.raised "AttributeError")), world)
    | some redis =>
      match redis.idem key with
      | none => (.locking ctx key, world)
      | some record =>
        match Redis.readRecord key (request.rhash sha256 dumps) record with
        | .error detail => (.done (.error (.conflict detail)), world)
        | .ok (.cached body) => (.done (.ok body), world)
        | .ok .inProgress => (.deduping ctx, world)
  | .locking ctx key =>
    match world.redis with
    | none => (.done (.error (.raised "AttributeError")), world)
    | some redis =>
      match redis.idem key with
      | none =>
        (.deduping ctx, { world with
          redis := some (redis.setIdem key (.inProgress (request.rhash sha256 dumps))) })
      -- Another request was faster: `get_or_lock` starts again.
      | some _ => (.looking ctx key, world)
  | .deduping ctx =>
    match world.redis, request.body.clientMsgId with
    | some redis, some clientMsgId =>
      match redis.dedup (ctx.user.id, request.cid, clientMsgId) with
      | some existingId => (.fetching ctx existingId, world)
      | none => (.inserting ctx, world)
    | _, _ => (.inserting ctx, world)
  | .fetching ctx existingId =>
    match getMessage world.db request.cid existingId with
    | .ok row => (.done (.ok (toResp row)), world)
    | .error _ => (.inserting ctx, world)
  | .inserting ctx =>
    match postMessage world.db ctx.workspaceId request.cid ctx.user.id request.body.text
        request.body.blocks request.body.parentId request.body.clientMsgId .text request.fresh with
    | .ok (row, db) => (.remembering ctx row, { world with db })
    | .error .uniqueViolation => (.resolving ctx, world)
    | .error failure => (.done (.error failure), world)
  | .resolving ctx =>
    match claimed world.db request ctx.workspaceId with
    | none => (.done (.error .uniqueViolation), world)
    | some existing => (.remembering ctx existing, world)
  | .remembering ctx row =>
    (.storing ctx row, { world with redis := rememberMessage world.redis request ctx.user.id row })
  | .storing _ row =>
    (.done (.ok (toResp row)),
      { world with redis := storeResponse sha256 dumps world.redis request (toResp row) })
  | .done answer => (.done answer, world)

variable {sha256 dumps}
variable {request : PostRequest} {world : World} {ctx : WorkspaceContext} {phase : Phase}
variable {key : String} {fresh : Fresh}

def Phase.Keyed (request : PostRequest) : Phase -> Prop
  | .looking _ key => request.key = some key
  | .locking _ key => request.key = some key
  | _ => True

theorem keyed_advance (keyed : phase.Keyed request) :
    (advance sha256 dumps { request with fresh } world phase).1.Keyed request := by
  cases phase with
  | starting caller =>
    simp only [advance]
    split
    · trivial
    · split
      · trivial
      · split
        · trivial
        · rename_i given
          exact given
  | looking ctx key =>
    simp only [advance]
    split
    · trivial
    · split
      · exact keyed
      · split <;> trivial
  | locking ctx key =>
    simp only [advance]
    split
    · trivial
    · split
      · trivial
      · exact keyed
  | deduping ctx =>
    simp only [advance]
    split
    · split <;> trivial
    · trivial
  | fetching ctx existingId | inserting ctx | resolving ctx =>
    simp only [advance]
    split <;> trivial
  | _ => trivial

/-! ## The steps of one request, alone -/

variable (sha256 dumps) in
/-- Alone, the request goes on from the phase to the reply. -/
inductive Ends (request : PostRequest) : Phase × World -> Reply MessageResp -> Prop where
  | done {answer : Except MessengerError MessageResp} {world : World} :
    Ends request (.done answer, world) (answer, world)
  | step {phase : Phase} {world : World} {reply : Reply MessageResp}
      (rest : Ends request (advance sha256 dumps request world phase) reply) :
    Ends request (phase, world) reply

theorem ends_remembering {row : MessageRow} :
    Ends sha256 dumps request (.remembering ctx row, world) (.ok (toResp row), { world with
      redis := storeResponse sha256 dumps (rememberMessage world.redis request ctx.user.id row) request
        (toResp row) }) :=
  .step (.step .done)

theorem ends_inserting : Ends sha256 dumps request (.inserting ctx, world)
    (match insertOrFind world.db request ctx with
      | .ok (row, db) => (.ok (toResp row), {
          db
          redis := storeResponse sha256 dumps (rememberMessage world.redis request ctx.user.id row)
            request (toResp row) })
      | .error failure => (.error failure, world)) := by
  refine .step ?_
  cases outcome : postMessage world.db ctx.workspaceId request.cid ctx.user.id request.body.text
      request.body.blocks request.body.parentId request.body.clientMsgId .text request.fresh with
  | ok posted =>
    simp only [advance, insertOrFind, outcome]
    exact ends_remembering
  | error failure =>
    cases failure with
    | uniqueViolation =>
      simp only [advance, insertOrFind, outcome]
      refine .step ?_
      cases found : claimed world.db request ctx.workspaceId with
      | none =>
        simp only [advance, found]
        exact .done
      | some existing =>
        simp only [advance, found]
        exact ends_remembering
    | _ =>
      simp only [advance, insertOrFind, outcome]
      exact .done

theorem ends_deduping : Ends sha256 dumps request (.deduping ctx, world)
    (postOrFind sha256 dumps world request ctx) := by
  refine .step ?_
  rcases world with ⟨db, _ | redis⟩
  · simp only [advance, postOrFind, pointed]
    exact ends_inserting
  · cases given : request.body.clientMsgId with
    | none =>
      simp only [advance, postOrFind, pointed, given]
      exact ends_inserting
    | some clientMsgId =>
      cases leads : redis.dedup (ctx.user.id, request.cid, clientMsgId) with
      | none =>
        simp only [advance, postOrFind, pointed, given, leads]
        exact ends_inserting
      | some existingId =>
        simp only [advance, postOrFind, pointed, given, leads]
        refine .step ?_
        cases read : getMessage db request.cid existingId with
        | ok row =>
          simp only [advance, read, Except.toOption]
          exact .done
        | error failure =>
          simp only [advance, read, Except.toOption]
          exact ends_inserting

theorem ends_looking {redis : Redis} {db : Database} (keyed : request.key = some key) :
    Ends sha256 dumps request (.looking ctx key, { db, redis := some redis })
      (match askStore sha256 dumps { db, redis := some redis } request with
        | .refused failure => (.error failure, { db, redis := some redis })
        | .replayed body => (.ok body, { db, redis := some redis })
        | .proceeds redis => postOrFind sha256 dumps { db, redis } request ctx) := by
  refine .step ?_
  unfold askStore
  rw [keyed]
  cases held : redis.idem key with
  | none =>
    simp only [advance, Redis.getOrLock, held]
    refine .step ?_
    simp only [advance, held]
    exact ends_deduping
  | some record =>
    cases read : Redis.readRecord key (request.rhash sha256 dumps) record with
    | error detail =>
      simp only [advance, Redis.getOrLock, held, read]
      exact .done
    | ok existing =>
      cases existing with
      | cached body =>
        simp only [advance, Redis.getOrLock, held, read]
        exact .done
      | inProgress =>
        simp only [advance, Redis.getOrLock, held, read]
        exact ends_deduping

/-- The steps of a request which runs alone give the reply of the endpoint. -/
theorem ends_starting (caller : Caller) (request : PostRequest) (world : World) :
    Ends sha256 dumps request (.starting caller, world)
      (postMessageEndpoint sha256 dumps caller request world) := by
  refine .step ?_
  cases context : getWorkspaceContext world.db caller with
  | error failure =>
    simp only [advance, postMessageEndpoint, context]
    exact .done
  | ok ctx =>
    cases posts : canUserPostMessage world.db ctx.user.id request.cid with
    | false =>
      simp only [advance, postMessageEndpoint, context, posts, Bool.not_false, if_true]
      exact .done
    | true =>
      simp only [advance, postMessageEndpoint, context, posts, Bool.not_true, Bool.false_eq_true,
        if_false]
      cases keyed : request.key with
      | none =>
        simp only [askStore, keyed]
        exact ends_deduping
      | some key =>
        rcases world with ⟨db, _ | redis⟩
        · simp only [askStore, keyed]
          exact .step .done
        · exact ends_looking keyed

end Messenger
end BreadMind
