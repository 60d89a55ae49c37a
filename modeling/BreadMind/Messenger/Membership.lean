import BreadMind.Messenger.Acl

namespace BreadMind
namespace Messenger

open Execution

/-!
# Changes of who sees what

Memberships of channels, roles and activations are changed by the services
below.  None of them looks at visibility; what a change does to it is stated
after the definitions: a membership decides at most about its own user and
channel, a role or an activation at most about its own user.
-/

/-- `add_members`, for one user.  Nothing is returned when the channel or the
user does not exist. -/
def addMember (db : Database) (channelId userId : UUID) : Option Database :=
  let row : MemberRow := { channelId, userId, role := .member }
  if (db.channel channelId).isSome && (db.user userId).isSome then
    if free : ∀ other ∈ db.members, ¬ Clashes MemberRow.key other row then
      some { db with
        members := db.members ++ [row]
        membersByPair := db.membersByPair.insert free }
    -- `ON CONFLICT DO NOTHING`.
    else some db
  else none

def removeMember (db : Database) (channelId userId : UUID) : Database :=
  { db with
    members := db.members.filter fun row => !(row.channelId = channelId && row.userId = userId)
    membersByPair := db.membersByPair.delete _ }

def updateUserRole (db : Database) (workspaceId userId : UUID) (role : Role) : Database :=
  { db with
    users := db.users.map fun row =>
      if row.id = userId ∧ row.workspaceId = workspaceId then { row with role } else row
    usersById := db.usersById.update fun row => by split <;> rfl }

def deactivateUser (db : Database) (workspaceId userId : UUID) (now : Timestamp) : Database :=
  { db with
    users := db.users.map fun row =>
      if row.id = userId ∧ row.workspaceId = workspaceId ∧ row.deactivatedAt = none then
        { row with deactivatedAt := some now }
      else row
    usersById := db.usersById.update fun row => by split <;> rfl }

/-- `visible_channels_endpoint` on a cache miss. -/
def queryVisibleChannels (db : Database) (workspaceId userId : UUID) : List UUID :=
  match db.user userId with
  | some row =>
    if row.workspaceId = workspaceId ∧ row.deactivatedAt = none then
      listVisibleChannels db workspaceId userId row.role
    else []
  | none => []

/-! ## The visible channels -/

variable {db after : Database} {workspaceId userId channelId : UUID}

variable {role : Role}

theorem mem_listVisibleChannels : channelId ∈ listVisibleChannels db workspaceId userId role <->
      ∃ chan, getChannel db channelId = some chan ∧ chan.workspaceId = workspaceId ∧
        (role.isElevated = true ∨ (chan.kind = .publicChannel ∧ role = .member) ∨
          userIsChannelMember db userId channelId false = true) := by
  unfold listVisibleChannels getChannel
  simp only [List.mem_map, Database.channel_eq_some]
  split
  · rename_i elevated
    simp only [List.mem_filter, decide_eq_true_eq, elevated, true_or, and_true]
    exact exists_congr fun chan => and_right_comm
  · rename_i plain
    simp only [plain, Bool.false_eq_true, false_or]
    split
    all_goals
      rename_i full
      simp only [List.mem_filter, decide_eq_true_eq, full, and_true, and_false, false_or]
      refine exists_congr fun chan => ?_
      constructor
      · rintro ⟨⟨member, within, sees⟩, rfl⟩
        exact ⟨⟨member, rfl⟩, within, sees⟩
      · rintro ⟨⟨member, rfl⟩, within, sees⟩
        exact ⟨⟨member, within, sees⟩, rfl⟩

theorem mem_queryVisibleChannels : channelId ∈ queryVisibleChannels db workspaceId userId <->
      canUserSeeChannel db userId channelId = true ∧
        ∃ role, getUserRole db userId = some (role, workspaceId) := by
  unfold queryVisibleChannels
  rw [canUserSeeChannel_eq_true]
  simp only [getUserRole_eq_some]
  cases known : db.user userId with
  | none => simp only [List.not_mem_nil, reduceCtorEq, false_and, exists_false]
  | some row =>
    dsimp only
    split
    · rename_i active
      rw [mem_listVisibleChannels]
      constructor
      · rintro ⟨chan, found, within, sees⟩
        refine ⟨⟨row.role, chan, ⟨row, rfl, active.2, rfl, active.1.trans within.symm⟩, found, sees⟩, ?_⟩
        exact ⟨row.role, row, rfl, active.2, rfl, active.1⟩
      · rintro ⟨⟨role, chan, ⟨other, same, _, kind, within⟩, found, sees⟩, _⟩
        cases same
        subst kind
        exact ⟨chan, found, within.symm.trans active.1, sees⟩
    · rename_i inactive
      refine iff_of_false List.not_mem_nil ?_
      rintro ⟨_, role, other, same, present, _, within⟩
      cases same
      exact inactive ⟨within, present⟩

theorem nodup_listVisibleChannels : (listVisibleChannels db workspaceId userId role).Nodup := by
  have distinct : (db.channels.map ChannelRow.id).Nodup := by
    refine List.pairwise_map.mpr (List.Pairwise.imp ?_ db.channelsById)
    intro chan other apart same
    exact apart ⟨Option.some_ne_none _, congrArg some same⟩
  unfold listVisibleChannels
  dsimp only
  split
  · exact distinct.sublist ((List.filter_sublist).map _)
  · split
    · exact distinct.sublist ((List.filter_sublist).map _)
    · exact distinct.sublist ((List.filter_sublist).map _)

/-- For an active user the query lists what the predicate admits, each channel
once, and the relay is told the same list. -/
theorem listVisibleChannels_agrees (db : Database) (workspaceId userId : UUID) (role : Role)
    (active : getUserRole db userId = some (role, workspaceId)) :
    (listVisibleChannels db workspaceId userId role).Nodup ∧
      (∀ channelId, channelId ∈ listVisibleChannels db workspaceId userId role <->
        (∃ chan, getChannel db channelId = some chan ∧ chan.workspaceId = workspaceId) ∧
          canUserSeeChannel db userId channelId = true) ∧
      queryVisibleChannels db workspaceId userId =
        listVisibleChannels db workspaceId userId role := by
  refine ⟨nodup_listVisibleChannels, fun channelId => ?_, ?_⟩
  · rw [mem_listVisibleChannels, canUserSeeChannel_eq_true]
    constructor
    · rintro ⟨chan, found, rfl, sees⟩
      exact ⟨⟨chan, found, rfl⟩, role, chan, active, found, sees⟩
    · rintro ⟨⟨chan, found, within⟩, known, other, same, foundOther, sees⟩
      cases found.symm.trans foundOther
      cases active.symm.trans same
      exact ⟨chan, found, within, sees⟩
  · rcases getUserRole_eq_some.mp active with ⟨row, found, present, rfl, within⟩
    unfold queryVisibleChannels
    rw [found]
    exact if_pos ⟨within, present⟩

/-- A guest in a private channel of the workspace. -/
def guestRoom : Database where
  users := [{ id := 1, workspaceId := 2, email := "ann@example.org", kind := .human, role := .guest }]
  channels := [{
    id := 3
    workspaceId := 2
    kind := .privateChannel
    postingPolicy := .all
    isArchived := false }]
  members := [{ channelId := 3, userId := 1, role := .member }]
  usersById := by decide
  channelsById := by decide
  membersByPair := by decide
  messagesById := by decide
  messagesBySequence := by decide
  messagesByClientMsgId := by decide

theorem listVisibleChannels_agrees_guestRoom :
    (3 : UUID) ∈ listVisibleChannels guestRoom 2 1 .guest ∧
      canUserSeeChannel guestRoom 1 3 = true := by
  have agrees := (listVisibleChannels_agrees guestRoom 2 1 .guest (by decide)).2.1 3
  have listed : (3 : UUID) ∈ listVisibleChannels guestRoom 2 1 .guest := by decide
  exact ⟨listed, (agrees.mp listed).2⟩

theorem canUserSeeChannel_congr (users : after.user userId = db.user userId)
    (channels : after.channels = db.channels)
    (members : after.member channelId userId = db.member channelId userId) :
    canUserSeeChannel after userId channelId = canUserSeeChannel db userId channelId := by
  unfold canUserSeeChannel getUserRole getChannel userIsChannelMember Database.channel
  rw [users, channels, members]

theorem mem_queryVisibleChannels_congr (users : after.user userId = db.user userId)
    (channels : after.channels = db.channels)
    (members : after.member channelId userId = db.member channelId userId) :
    channelId ∈ queryVisibleChannels after workspaceId userId <->
      channelId ∈ queryVisibleChannels db workspaceId userId := by
  rw [mem_queryVisibleChannels, mem_queryVisibleChannels,
    canUserSeeChannel_congr users channels members]
  unfold getUserRole
  rw [users]

variable {member : UUID}

theorem mem_queryVisibleChannels_addMember {target : UUID}
    (added : addMember db target member = some after)
    (other : ¬ (channelId = target ∧ userId = member)) :
    channelId ∈ queryVisibleChannels after workspaceId userId <->
      channelId ∈ queryVisibleChannels db workspaceId userId := by
  unfold addMember at added
  dsimp only at added
  split at added
  · split at added
    · rename_i free
      cases added
      refine mem_queryVisibleChannels_congr rfl rfl ?_
      refine lookup_congr db.membersByPair (db.membersByPair.insert free) ?_
      intro row keyed
      refine List.mem_append.trans (or_iff_left ?_)
      intro new
      rw [List.mem_singleton.mp new] at keyed
      cases keyed
      exact other ⟨rfl, rfl⟩
    · cases added
      exact Iff.rfl
  · cases added

theorem mem_queryVisibleChannels_removeMember {target : UUID}
    (other : ¬ (channelId = target ∧ userId = member)) :
    channelId ∈ queryVisibleChannels (removeMember db target member) workspaceId userId <->
      channelId ∈ queryVisibleChannels db workspaceId userId := by
  refine mem_queryVisibleChannels_congr rfl rfl ?_
  refine lookup_congr db.membersByPair (db.membersByPair.delete _) ?_
  intro row keyed
  cases keyed
  refine List.mem_filter.trans (and_iff_left ?_)
  simpa only [Bool.not_eq_true', Bool.and_eq_false_iff, decide_eq_false_iff_not, not_and_or] using other

theorem mem_queryVisibleChannels_updateUserRole {home : UUID} (other : userId ≠ member) :
    channelId ∈ queryVisibleChannels (updateUserRole db home member role) workspaceId userId <->
      channelId ∈ queryVisibleChannels db workspaceId userId := by
  refine mem_queryVisibleChannels_congr ?_ rfl rfl
  refine lookup_update db.usersById (fun row => by split <;> rfl) ?_
  intro row keyed
  cases keyed
  exact if_neg fun both => other both.1

theorem mem_queryVisibleChannels_deactivateUser {home : UUID} {now : Timestamp}
    (other : userId ≠ member) :
    channelId ∈ queryVisibleChannels (deactivateUser db home member now) workspaceId userId <->
      channelId ∈ queryVisibleChannels db workspaceId userId := by
  refine mem_queryVisibleChannels_congr ?_ rfl rfl
  refine lookup_update db.usersById (fun row => by split <;> rfl) ?_
  intro row keyed
  cases keyed
  exact if_neg fun both => other both.1

end Messenger
end BreadMind
