import BreadMind.Messenger.MessageEndpoints

namespace BreadMind
namespace Messenger

/-!
# Who gets to see and change messages

A request touches a channel when it returns a message of it, or brings in or
takes out a version of one.  The property asked of a request is that its
caller sees every channel it touches.  Reading one message always has it.
Listing has no check of its own, and for an owner or admin the check before
an edit or a deletion does not look at the channel.
-/

variable (sha256 : String -> String) (dumps : MessagePostReq -> String)

inductive MessageRequest where
  | list (cid : UUID) (before after : Option Timestamp) (limit : Nat)
  | get (cid mid : UUID)
  | patch (cid mid : UUID) (body : MessageEditReq) (outboxId : UUID) (now clock : Timestamp)
  | delete (cid mid outboxId : UUID) (now clock : Timestamp)
  | post (request : PostRequest)

def serve (caller : Caller) (world : World) : MessageRequest -> Reply (List MessageResp)
  | .list cid before after limit =>
    match listMessagesEndpoint world.db caller cid before after limit with
    | .ok page => (.ok page.messages, world)
    | .error failure => (.error failure, world)
  | .get cid mid =>
    match getMessageEndpoint world.db caller cid mid with
    | .ok resp => (.ok [resp], world)
    | .error failure => (.error failure, world)
  | .patch cid mid body outboxId now clock =>
    match patchMessage world.db caller cid mid body outboxId now clock with
    | .ok (resp, db) => (.ok [resp], { world with db })
    | .error failure => (.error failure, world)
  | .delete cid mid outboxId now clock =>
    match deleteMessageEndpoint world.db caller cid mid outboxId now clock with
    | .ok db => (.ok [], { world with db })
    | .error failure => (.error failure, world)
  | .post request =>
    let reply := postMessageEndpoint sha256 dumps caller request world
    (reply.1.map fun resp => [resp], reply.2)

inductive Touches (world : World) (reply : Reply (List MessageResp)) : UUID -> Prop where
  | returned {resps : List MessageResp} {resp : MessageResp} (answered : reply.1 = .ok resps)
      (member : resp ∈ resps) : Touches world reply resp.channelId
  | changed {row : StoredMessage} (changes : Changed world.db.messages reply.2.db.messages row) :
      Touches world reply row.channelId

def Isolated (world : World) (user wid : UUID) (request : MessageRequest) : Prop :=
  ∀ channelId,
    Touches world (serve sha256 dumps { token := .ok user, wid } world request) channelId ->
      canUserSeeChannel world.db user channelId = true

/-- When the request keeps to what its caller sees. -/
def WithinSight (world : World) (user wid : UUID) : MessageRequest -> Prop
  | .list cid before after limit =>
    Authorised world.db user wid -> limitAllowed limit = true ->
      ∀ row ∈ world.db.messages, isListed cid before after row = true ->
        canUserSeeChannel world.db user cid = true
  | .get _ _ => True
  | .patch cid mid _ _ now _ =>
    Authorised world.db user wid -> isElevatedUser world.db user = true ->
      ∀ row, world.db.message mid = some row -> row.channelId = cid -> row.deletedAt = none ->
        world.db.edits.any (fun edit => edit.messageId = mid ∧ edit.editedAt = now) = false ->
          sameWorkspace world.db user cid = true
  | .delete cid mid _ _ _ =>
    Authorised world.db user wid -> isElevatedUser world.db user = true ->
      ∀ row, world.db.message mid = some row -> row.channelId = cid -> row.deletedAt = none ->
        sameWorkspace world.db user cid = true
  | .post request =>
    Authorised world.db user wid -> canUserPostMessage world.db user request.cid = true ->
      (∀ body, askStore sha256 dumps world request = .replayed body ->
        canUserSeeChannel world.db user body.channelId = true) ∧
      (∀ redis, askStore sha256 dumps world request = .proceeds redis ->
        pointed { world with redis } request user = none -> request.blank = false ->
          ∀ row, claimed world.db request wid = some row ->
            canUserSeeChannel world.db user row.channelId = true)

variable {sha256 dumps}
variable {world : World} {user wid : UUID}

variable {request : MessageRequest}

theorem isolated_of_refused (failure : MessengerError) (redis : Option Redis)
    (refused : serve sha256 dumps { token := .ok user, wid } world request =
      (.error failure, { world with redis })) : Isolated sha256 dumps world user wid request := by
  intro channelId touches
  rw [refused] at touches
  cases touches with
  | returned answered member => cases answered
  | changed changes => exact False.elim (not_changed_self _ _ changes)

theorem isolated_iff {resps : List MessageResp} {after : World}
    (answered : serve sha256 dumps { token := .ok user, wid } world request = (.ok resps, after)) :
    Isolated sha256 dumps world user wid request <->
      (∀ resp ∈ resps, canUserSeeChannel world.db user resp.channelId = true) ∧
        ∀ row, Changed world.db.messages after.db.messages row ->
          canUserSeeChannel world.db user row.channelId = true := by
  unfold Isolated
  rw [answered]
  constructor
  · intro isolated
    exact ⟨fun resp member => isolated _ (.returned rfl member),
      fun row changes => isolated _ (.changed changes)⟩
  · rintro ⟨returned, changed⟩ channelId touches
    cases touches with
    | returned same member =>
      cases same
      exact returned _ member
    | changed changes => exact changed _ changes

theorem serve_unauthorised {caller : Caller} {failure : MessengerError}
    (refused : getWorkspaceContext world.db caller = .error failure) (request : MessageRequest) :
    serve sha256 dumps caller world request = (.error failure, world) := by
  cases request with
  | list cid before after limit => simp only [serve, listMessagesEndpoint, refused]
  | get cid mid => simp only [serve, getMessageEndpoint, refused]
  | patch cid mid body outboxId now clock => simp only [serve, patchMessage, refused]
  | delete cid mid outboxId now clock => simp only [serve, deleteMessageEndpoint, refused]
  | post request => simp only [serve, postMessageEndpoint, refused, Except.map]

section Authorised

variable {ctx : WorkspaceContext}
variable (authorised : getWorkspaceContext world.db { token := .ok user, wid } = .ok ctx)
include authorised

variable (cid : UUID)

theorem isolated_list (before after : Option Timestamp) (limit : Nat) :
    Isolated sha256 dumps world user wid (.list cid before after limit) <->
      WithinSight sha256 dumps world user wid (.list cid before after limit) := by
  by_cases allowed : limitAllowed limit = true
  · have answered : serve sha256 dumps { token := .ok user, wid } world (.list cid before after limit) =
        (.ok ((listMessages world.db cid before after limit).1.map toResp), world) := by
      simp only [serve, listMessagesEndpoint, authorised, allowed, Bool.not_true, Bool.false_eq_true,
        if_false]
    rw [isolated_iff answered]
    constructor
    · rintro ⟨returned, _⟩ _ _ row member listed
      have positive : 1 ≤ limit := by
        unfold limitAllowed at allowed
        rw [Bool.and_eq_true] at allowed
        exact of_decide_eq_true allowed.1
      rcases exists_shown positive member listed with ⟨shown, isShown⟩
      rw [← channelId_of_shown isShown]
      exact returned (toResp shown) (List.mem_map_of_mem isShown)
    · intro sight
      refine ⟨?_, fun row changes => False.elim (not_changed_self _ _ changes)⟩
      intro resp member
      rcases List.mem_map.mp member with ⟨shown, isShown, same⟩
      subst same
      have here : (toResp shown).channelId = cid := channelId_of_shown isShown
      rw [here]
      rcases listed_of_shown isShown with ⟨stored, inside, selected, _⟩
      exact sight ⟨ctx, authorised⟩ allowed stored inside selected
  · refine iff_of_true (isolated_of_refused (.requestValidation "limit") world.redis ?_)
      (fun _ impossible => absurd impossible allowed)
    simp only [serve, listMessagesEndpoint, authorised, Bool.eq_false_iff.mpr allowed, Bool.not_false,
      if_true]

theorem isolated_get (mid : UUID) : Isolated sha256 dumps world user wid (.get cid mid) := by
  have named := (getWorkspaceContext_ok authorised).1
  by_cases sees : canUserSeeMessage world.db user mid = true
  · cases read : getMessage world.db cid mid with
    | error failure =>
      refine isolated_of_refused failure world.redis ?_
      simp only [serve, getMessageEndpoint, authorised, named, sees, Bool.not_true,
        Bool.false_eq_true, if_false, read, Except.map]
    | ok row =>
      have answered : serve sha256 dumps { token := .ok user, wid } world (.get cid mid) =
          (.ok [toResp row], world) := by
        simp only [serve, getMessageEndpoint, authorised, named, sees, Bool.not_true,
          Bool.false_eq_true, if_false, read, Except.map]
      rw [isolated_iff answered]
      refine ⟨?_, fun row changes => False.elim (not_changed_self _ _ changes)⟩
      intro resp member
      rw [List.mem_singleton.mp member]
      rcases getMessage_eq_ok.mp read with ⟨stored, found, _, same⟩
      unfold canUserSeeMessage at sees
      rw [found] at sees
      exact same ▸ sees
  · refine isolated_of_refused (.notFound "message" mid.text) world.redis ?_
    simp only [serve, getMessageEndpoint, authorised, named, Bool.eq_false_iff.mpr sees, Bool.not_false,
      if_true]

theorem isolated_patch (mid : UUID) (body : MessageEditReq) (outboxId : UUID)
    (now clock : Timestamp) :
    Isolated sha256 dumps world user wid (.patch cid mid body outboxId now clock) <->
      WithinSight sha256 dumps world user wid (.patch cid mid body outboxId now clock) := by
  have named := (getWorkspaceContext_ok authorised).1
  by_cases edits : canUserEditMessage world.db user mid = true
  · rcases canUserEditMessage_eq_true.mp edits with ⟨stored, found, _, allowed⟩
    cases outcome : editMessage world.db cid mid body.text body.blocks user outboxId now clock with
    | error failure =>
      refine iff_of_true (isolated_of_refused failure world.redis ?_) ?_
      · simp only [serve, patchMessage, authorised, named, edits, Bool.not_true, Bool.false_eq_true,
          if_false, outcome]
      · intro _ _ row isRow here present unedited
        rcases exists_editMessage isRow here present unedited with ⟨_, _, succeeds⟩
        rw [outcome] at succeeds
        cases succeeds
    | ok result =>
      rcases result with ⟨row, after⟩
      have ⟨⟨prev, isPrev, here, present, unedited⟩, there, changed⟩ := editMessage_ok outcome
      have answered : serve sha256 dumps { token := .ok user, wid } world
          (.patch cid mid body outboxId now clock) = (.ok [toResp row], { world with db := after }) := by
        simp only [serve, patchMessage, authorised, named, edits, Bool.not_true, Bool.false_eq_true,
          if_false, outcome]
      rw [found] at isPrev
      cases isPrev
      rw [isolated_iff answered]
      constructor
      · rintro ⟨returned, _⟩ _ _ _ _ _ _ _
        have sees := returned (toResp row) (List.mem_singleton_self _)
        exact canUserSeeChannel.sameWorkspace (there ▸ sees)
      · intro sight
        have sees : canUserSeeChannel world.db user cid = true := by
          rcases allowed with elevated | ⟨_, sees⟩
          · exact canUserSeeChannel_of_elevated elevated
              (sight ⟨ctx, authorised⟩ elevated stored found here present unedited)
          · exact here ▸ sees
        refine ⟨?_, fun row changes => changed row changes ▸ sees⟩
        intro resp member
        rw [List.mem_singleton.mp member]
        change canUserSeeChannel world.db user row.channelId = true
        rw [there]
        exact sees
  · refine iff_of_true (isolated_of_refused (.forbidden "cannot edit this message") world.redis ?_) ?_
    · simp only [serve, patchMessage, authorised, named, Bool.eq_false_iff.mpr edits, Bool.not_false,
        if_true]
    · intro _ elevated row found _ present _
      exact absurd (canUserEditMessage_eq_true.mpr ⟨row, found, present, .inl elevated⟩) edits

theorem isolated_delete (mid outboxId : UUID) (now clock : Timestamp) :
    Isolated sha256 dumps world user wid (.delete cid mid outboxId now clock) <->
      WithinSight sha256 dumps world user wid (.delete cid mid outboxId now clock) := by
  have named := (getWorkspaceContext_ok authorised).1
  by_cases edits : canUserEditMessage world.db user mid = true
  · rcases canUserEditMessage_eq_true.mp edits with ⟨stored, found, present, allowed⟩
    cases outcome : deleteMessage world.db cid mid outboxId now clock with
    | error failure =>
      refine iff_of_true (isolated_of_refused failure world.redis ?_) ?_
      · simp only [serve, deleteMessageEndpoint, authorised, named, edits, Bool.not_true,
          Bool.false_eq_true, if_false, outcome]
      · intro _ _ row isRow here _
        rcases exists_deleteMessage isRow here with ⟨_, succeeds⟩
        rw [outcome] at succeeds
        cases succeeds
    | ok after =>
      rcases deleteMessage_ok outcome with ⟨prev, isPrev, here, changed, replaced⟩
      have answered : serve sha256 dumps { token := .ok user, wid } world
          (.delete cid mid outboxId now clock) = (.ok [], { world with db := after }) := by
        simp only [serve, deleteMessageEndpoint, authorised, named, edits, Bool.not_true,
          Bool.false_eq_true, if_false, outcome]
      rw [found] at isPrev
      cases isPrev
      rw [isolated_iff answered]
      constructor
      · rintro ⟨_, changes⟩ _ _ _ _ _ _
        exact canUserSeeChannel.sameWorkspace (here ▸ changes stored (replaced present))
      · intro sight
        have sees : canUserSeeChannel world.db user cid = true := by
          rcases allowed with elevated | ⟨_, sees⟩
          · exact canUserSeeChannel_of_elevated elevated
              (sight ⟨ctx, authorised⟩ elevated stored found here present)
          · exact here ▸ sees
        exact ⟨fun _ impossible => absurd impossible List.not_mem_nil,
          fun row changes => changed row changes ▸ sees⟩
  · refine iff_of_true (isolated_of_refused (.forbidden "cannot delete this message") world.redis ?_) ?_
    · simp only [serve, deleteMessageEndpoint, authorised, named, Bool.eq_false_iff.mpr edits,
        Bool.not_false, if_true]
    · intro _ elevated row found _ present
      exact absurd (canUserEditMessage_eq_true.mpr ⟨row, found, present, .inl elevated⟩) edits

/-- A post that goes on touches its own channel, unless the client identifier
leads to a message elsewhere. -/
theorem isolated_of_outcome {request : PostRequest} {redis : Option Redis} {reply : Reply MessageResp}
    (sees : canUserSeeChannel world.db user request.cid = true)
    (answered : postMessageEndpoint sha256 dumps { token := .ok user, wid } request world = reply)
    (outcome : PostOutcome { world with redis } request ctx reply) :
    Isolated sha256 dumps world user wid (.post request) <->
      (pointed { world with redis } request user = none -> request.blank = false ->
        ∀ row, claimed world.db request wid = some row ->
          canUserSeeChannel world.db user row.channelId = true) := by
  have ⟨named, placed, _⟩ := getWorkspaceContext_ok authorised
  have served : serve sha256 dumps { token := .ok user, wid } world (.post request) =
      (reply.1.map fun resp => [resp], reply.2) := by simp only [serve, answered]
  cases outcome with
  | @points row leads =>
    rw [named] at leads
    refine iff_of_true ((isolated_iff served).mpr ⟨?_, ?_⟩) ?_
    · intro resp member
      rw [List.mem_singleton.mp member]
      change canUserSeeChannel world.db user row.channelId = true
      rw [channelId_of_pointed leads]
      exact sees
    · exact fun row changes => False.elim (not_changed_self _ _ changes)
    · intro unpointed
      cases leads.symm.trans unpointed
  | @finds row next unpointed present found =>
    rw [named] at unpointed
    rw [placed] at found
    rw [isolated_iff served]
    constructor
    · rintro ⟨returned, _⟩ _ _ other isOther
      cases found.symm.trans isOther
      exact returned (toResp row) (List.mem_singleton_self _)
    · intro sight
      refine ⟨?_, fun row changes => False.elim (not_changed_self _ _ changes)⟩
      intro resp member
      rw [List.mem_singleton.mp member]
      exact sight unpointed present row found
  | posts unpointed unclaimed posted =>
    refine iff_of_true ((isolated_iff served).mpr ⟨?_, ?_⟩) ?_
    · intro resp member
      rw [List.mem_singleton.mp member]
      exact sees
    · intro changed changes
      unfold Changed at changes
      rw [posted.messages] at changes
      rcases changes with ⟨inside, outside⟩ | ⟨inside, outside⟩
      · rcases List.mem_append.mp inside with old | new
        · exact absurd old outside
        · rw [List.mem_singleton.mp new]
          exact sees
      · exact absurd (List.mem_append_left _ inside) outside
    · intro _ _ row found
      rw [← placed] at found
      cases unclaimed.symm.trans found
  | fails unpointed unclaimed =>
    refine iff_of_true (isolated_of_refused _ redis served) ?_
    intro _ present row found
    rw [← placed] at found
    cases (unclaimed present).symm.trans found

theorem isolated_post (request : PostRequest) :
    Isolated sha256 dumps world user wid (.post request) <->
      WithinSight sha256 dumps world user wid (.post request) := by
  have named := (getWorkspaceContext_ok authorised).1
  by_cases posts : canUserPostMessage world.db user request.cid = true
  · have whole := postMessageEndpoint_of_allowed sha256 dumps authorised (named.symm ▸ posts)
    cases asked : askStore sha256 dumps world request with
    | refused failure =>
      rw [asked] at whole
      refine iff_of_true (isolated_of_refused failure world.redis ?_) ?_
      · simp only [serve, whole, Except.map]
      · intro _ _
        constructor <;> · intro _ impossible; cases asked.symm.trans impossible
    | replayed body =>
      rw [asked] at whole
      have answered : serve sha256 dumps { token := .ok user, wid } world (.post request) =
          (.ok [body], world) := by simp only [serve, whole, Except.map]
      rw [isolated_iff answered]
      constructor
      · rintro ⟨returned, _⟩ _ _
        refine ⟨?_, fun redis impossible => by cases asked.symm.trans impossible⟩
        intro other same
        cases asked.symm.trans same
        exact returned body (List.mem_singleton_self _)
      · intro sight
        refine ⟨?_, fun row changes => False.elim (not_changed_self _ _ changes)⟩
        intro resp member
        rw [List.mem_singleton.mp member]
        exact (sight ⟨ctx, authorised⟩ posts).1 body asked
    | proceeds redis =>
      rw [asked] at whole
      rw [isolated_of_outcome authorised (canUserSeeChannel_of_post posts) whole
        (postOrFind_outcome sha256 dumps _ request ctx)]
      constructor
      · intro sight _ _
        refine ⟨?_, ?_⟩
        · intro body impossible
          cases asked.symm.trans impossible
        · intro next same
          cases asked.symm.trans same
          exact sight
      · intro sight
        exact (sight ⟨ctx, authorised⟩ posts).2 redis asked
  · refine iff_of_true (isolated_of_refused (.forbidden "cannot post in this channel") world.redis ?_) ?_
    · simp only [serve, postMessageEndpoint, authorised, named, Bool.eq_false_iff.mpr posts,
        Bool.not_false, if_true, Except.map]
    · exact fun _ impossible => absurd impossible posts

end Authorised

theorem isolated_iff_withinSight :
    Isolated sha256 dumps world user wid request <-> WithinSight sha256 dumps world user wid request := by
  cases context : getWorkspaceContext world.db { token := .ok user, wid } with
  | error failure =>
    refine iff_of_true (isolated_of_refused failure world.redis (serve_unauthorised context request)) ?_
    have unauthorised : ¬ Authorised world.db user wid := by
      rintro ⟨ctx, authorised⟩
      cases context.symm.trans authorised
    cases request with
    | get cid mid => trivial
    | _ => exact fun authorised => absurd authorised unauthorised
  | ok ctx =>
    cases request with
    | list cid before after limit => exact isolated_list context cid before after limit
    | get cid mid => exact iff_of_true (isolated_get context cid mid) trivial
    | patch cid mid body outboxId now clock => exact isolated_patch context cid mid body outboxId now clock
    | delete cid mid outboxId now clock => exact isolated_delete context cid mid outboxId now clock
    | post request => exact isolated_post context request

theorem admin_sees_iff {db : Database} {channel : UUID} :
    (canUserAdminChannel db user channel = true -> canUserSeeChannel db user channel = true) <->
      ((getUserRole db user).isSome = true ->
        (isElevatedUser db user = true ∨ userIsChannelMember db user channel true = true) ->
          sameWorkspace db user channel = true) := by
  rw [canUserAdminChannel_eq_true]
  constructor
  · intro sees active allowed
    exact canUserSeeChannel.sameWorkspace (sees ⟨active, allowed⟩)
  · rintro within ⟨active, allowed⟩
    have same := within active allowed
    rcases allowed with elevated | admin
    · exact canUserSeeChannel_of_elevated elevated same
    · exact canUserSeeChannel_of_member (userIsChannelMember_of_admin admin) same

theorem editor_sees_iff {db : Database} {message : UUID} :
    (∀ msg, db.message message = some msg -> canUserEditMessage db user message = true ->
      canUserSeeChannel db user msg.channelId = true) <->
      (isElevatedUser db user = true -> ∀ msg, db.message message = some msg ->
        msg.deletedAt = none -> sameWorkspace db user msg.channelId = true) := by
  constructor
  · intro sees elevated msg found present
    exact canUserSeeChannel.sameWorkspace
      (sees msg found (canUserEditMessage_eq_true.mpr ⟨msg, found, present, .inl elevated⟩))
  · intro within msg found edits
    rcases canUserEditMessage_eq_true.mp edits with ⟨other, isOther, present, allowed⟩
    cases found.symm.trans isOther
    rcases allowed with elevated | ⟨_, sees⟩
    · exact canUserSeeChannel_of_elevated elevated (within elevated msg found present)
    · exact sees

variable (sha256 dumps)

/-- Every predicate implies visibility, and every request is isolated. -/
structure AccessIsolated : Prop where
  posts : ∀ db user channel, canUserPostMessage db user channel = true ->
    canUserSeeChannel db user channel = true
  admins : ∀ db user channel, canUserAdminChannel db user channel = true ->
    canUserSeeChannel db user channel = true
  edits : ∀ (db : Database) user message msg, db.message message = some msg ->
    canUserEditMessage db user message = true -> canUserSeeChannel db user msg.channelId = true
  deletes : ∀ (db : Database) user message msg, db.message message = some msg ->
    canUserDeleteMessage db user message = true -> canUserSeeChannel db user msg.channelId = true
  requests : ∀ world user wid request, Isolated sha256 dumps world user wid request

/-- Posting always implies visibility.  Each of the other parts holds exactly
where its condition on the user, the workspace and the stored messages does. -/
theorem access_isolated_exactly : (∀ db user channel, canUserPostMessage db user channel = true ->
      canUserSeeChannel db user channel = true) ∧ (∀ db user channel,
      (canUserAdminChannel db user channel = true -> canUserSeeChannel db user channel = true) <->
        ((getUserRole db user).isSome = true ->
          (isElevatedUser db user = true ∨ userIsChannelMember db user channel true = true) ->
            sameWorkspace db user channel = true)) ∧ (∀ (db : Database) user message,
      (∀ msg, db.message message = some msg -> canUserEditMessage db user message = true ->
        canUserSeeChannel db user msg.channelId = true) <->
        (isElevatedUser db user = true -> ∀ msg, db.message message = some msg ->
          msg.deletedAt = none -> sameWorkspace db user msg.channelId = true)) ∧
    (∀ (db : Database) user message,
      (∀ msg, db.message message = some msg -> canUserDeleteMessage db user message = true ->
        canUserSeeChannel db user msg.channelId = true) <->
        (isElevatedUser db user = true -> ∀ msg, db.message message = some msg ->
          msg.deletedAt = none -> sameWorkspace db user msg.channelId = true)) ∧
    (∀ world user wid request, Isolated sha256 dumps world user wid request <->
      WithinSight sha256 dumps world user wid request) :=
  ⟨fun _ _ _ => canUserSeeChannel_of_post, fun _ _ _ => admin_sees_iff, fun _ _ _ => editor_sees_iff,
    fun _ _ _ => editor_sees_iff, fun _ _ _ _ => isolated_iff_withinSight⟩

def foreignMessage : World where
  db := {
    users := [{ id := 1, workspaceId := 10, email := "guest", kind := .human, role := .guest }]
    channels := [{
      id := 2, workspaceId := 20, kind := .privateChannel, postingPolicy := .all, isArchived := false }]
    messages := [{
      id := 3, workspaceId := 20, channelId := 2, authorId := 4, parentId := none, kind := .text
      text := some "hello", blocks := [], createdAt := 5, editedAt := none, deletedAt := none, tsSeq := 1
      clientMsgId := none }]
    usersById := by decide
    channelsById := by decide
    membersByPair := members_nil
    messagesById := by decide
    messagesBySequence := by decide
    messagesByClientMsgId := by decide }
  redis := none

/-- The guest lists the private channel of the other workspace. -/
theorem foreign_channel_listed : ¬ AccessIsolated (fun text => text) (fun _ => "") := by
  intro isolated
  have within := isolated_iff_withinSight.mp (isolated.requests foreignMessage 1 10
    (.list 2 none none 50))
  have sees := within ⟨_, rfl⟩ (by decide) _ List.mem_cons_self (by decide)
  exact absurd sees (by decide)

end Messenger
end BreadMind
