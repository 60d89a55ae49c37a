import BreadMind.Messenger.Database

namespace BreadMind
namespace Messenger

/-!
# Visibility and posting

The predicates read the tables and answer yes or no.  Each of them first looks
up the role of the user, who must not be deactivated.  `can_user_see_channel`
and `can_user_post_message` also compare the workspaces of the user and of the
channel; `can_user_admin_channel` and `can_user_edit_message` do not.
-/

def Role.isElevated : Role -> Bool
  | .owner => true
  | .admin => true
  | _ => false

variable (db : Database)

def getUserRole (userId : UUID) : Option (Role × UUID) :=
  match db.user userId with
  | some row => if row.deactivatedAt = none then some (row.role, row.workspaceId) else none
  | none => none

def getChannel (channelId : UUID) : Option ChannelRow :=
  db.channel channelId

def userIsChannelMember (userId channelId : UUID) (requireAdmin : Bool) : Bool :=
  match db.member channelId userId with
  | some row => !requireAdmin || row.role == .admin
  | none => false

def canUserSeeChannel (userId channelId : UUID) : Bool :=
  match getUserRole db userId with
  | none => false
  | some (role, userWid) =>
    match getChannel db channelId with
    | none => false
    | some chan =>
      if chan.workspaceId ≠ userWid then false
      else if role.isElevated then true
      else if chan.kind = .publicChannel ∧ role = .member then true
      else userIsChannelMember db userId channelId false

def canUserPostMessage (userId channelId : UUID) : Bool :=
  match getUserRole db userId with
  | none => false
  | some (role, userWid) =>
    match getChannel db channelId with
    | none => false
    | some chan =>
      if chan.workspaceId ≠ userWid ∨ chan.isArchived then false
      else if role.isElevated then true
      else if !canUserSeeChannel db userId channelId then false
      else if chan.postingPolicy = .admins then userIsChannelMember db userId channelId true
      else if chan.postingPolicy = .specificRoles then
        userIsChannelMember db userId channelId true
      else if role = .guest then userIsChannelMember db userId channelId false
      else true

def canUserAdminChannel (userId channelId : UUID) : Bool :=
  match getUserRole db userId with
  | none => false
  | some (role, _) => if role.isElevated then true else userIsChannelMember db userId channelId true

def canUserSeeMessage (userId messageId : UUID) : Bool :=
  match db.message messageId with
  | none => false
  | some row => canUserSeeChannel db userId row.channelId

def canUserEditMessage (userId messageId : UUID) : Bool :=
  match db.message messageId with
  | none => false
  | some msg =>
    if msg.deletedAt ≠ none then false
    else
      match getUserRole db userId with
      | none => false
      | some (role, _) =>
        if role.isElevated then true
        else if msg.authorId ≠ userId then false
        else canUserSeeChannel db userId msg.channelId

/-- Same as edit for V1 (author or admin). -/
def canUserDeleteMessage (userId messageId : UUID) : Bool :=
  canUserEditMessage db userId messageId

def listVisibleChannels (workspaceId userId : UUID) (userRole : Role) : List UUID :=
  let isMember := fun chan : ChannelRow => userIsChannelMember db userId chan.id false
  let selected :=
    if userRole.isElevated then
      db.channels.filter fun chan => chan.workspaceId = workspaceId
    else if userRole = .member then
      db.channels.filter fun chan =>
        chan.workspaceId = workspaceId ∧ (chan.kind = .publicChannel ∨ isMember chan)
    else
      db.channels.filter fun chan => chan.workspaceId = workspaceId ∧ isMember chan
  selected.map ChannelRow.id

/-- The user is active and an owner or admin of his workspace. -/
def isElevatedUser (userId : UUID) : Bool :=
  match getUserRole db userId with
  | some (role, _) => role.isElevated
  | none => false

/-! ## What the predicates say -/

variable {db}

variable {userId : UUID}

theorem getUserRole_eq_some {workspaceId : UUID} {role : Role} :
    getUserRole db userId = some (role, workspaceId) <->
      ∃ row, db.user userId = some row ∧ row.deactivatedAt = none ∧
        row.role = role ∧ row.workspaceId = workspaceId := by
  unfold getUserRole
  cases db.user userId with
  | none => simp only [reduceCtorEq, false_and, exists_false]
  | some row =>
    simp only [Option.some_inj, exists_eq_left']
    split
    · rename_i active
      simp only [Option.some_inj, Prod.mk_inj, active, true_and]
    · rename_i inactive
      simp only [reduceCtorEq, inactive, false_and]

/-- The user is active, the channel exists and both belong to one workspace. -/
def sameWorkspace (db : Database) (userId channelId : UUID) : Bool :=
  match getUserRole db userId, getChannel db channelId with
  | some (_, userWid), some chan => chan.workspaceId == userWid
  | _, _ => false

variable {channelId : UUID}

theorem sameWorkspace_eq_true : sameWorkspace db userId channelId = true <->
      ∃ role chan, getUserRole db userId = some (role, chan.workspaceId) ∧
        getChannel db channelId = some chan := by
  unfold sameWorkspace
  constructor
  · intro same
    split at same
    · rename_i role userWid chan known found
      rw [← eq_of_beq same] at known
      exact ⟨role, chan, known, found⟩
    · cases same
  · rintro ⟨role, chan, known, found⟩
    rw [known, found]
    exact beq_self_eq_true _

theorem canUserSeeChannel_eq_true : canUserSeeChannel db userId channelId = true <-> ∃ role chan,
        getUserRole db userId = some (role, chan.workspaceId) ∧
        getChannel db channelId = some chan ∧
        (role.isElevated = true ∨ (chan.kind = .publicChannel ∧ role = .member) ∨
          userIsChannelMember db userId channelId false = true) := by
  unfold canUserSeeChannel
  cases known : getUserRole db userId with
  | none => simp only [Bool.false_eq_true, reduceCtorEq, false_and, exists_false]
  | some pair =>
    rcases pair with ⟨role, userWid⟩
    cases found : getChannel db channelId with
    | none => simp only [Bool.false_eq_true, reduceCtorEq, false_and, and_false, exists_false]
    | some chan =>
      dsimp only
      simp only [Option.some_inj, Prod.mk_inj]
      constructor
      · intro sees
        split at sees
        · cases sees
        · rename_i same
          refine ⟨role, chan, ⟨rfl, (not_not.mp same).symm⟩, rfl, ?_⟩
          split at sees
          · rename_i elevated
            exact .inl elevated
          · split at sees
            · rename_i open_
              exact .inr (.inl open_)
            · exact .inr (.inr sees)
      · rintro ⟨_, _, ⟨rfl, rfl⟩, rfl, admitted⟩
        rw [if_neg (not_not.mpr rfl)]
        split
        · rfl
        · rename_i plain
          split
          · rfl
          · rename_i closed
            rcases admitted with elevated | open_ | member
            · exact absurd elevated plain
            · exact absurd open_ closed
            · exact member

theorem canUserSeeChannel.sameWorkspace (sees : canUserSeeChannel db userId channelId = true) :
    sameWorkspace db userId channelId = true := by
  rcases canUserSeeChannel_eq_true.mp sees with ⟨role, chan, known, found, _⟩
  exact sameWorkspace_eq_true.mpr ⟨role, chan, known, found⟩

theorem canUserSeeChannel_of_elevated
    (elevated : isElevatedUser db userId = true) (same : sameWorkspace db userId channelId = true) :
    canUserSeeChannel db userId channelId = true := by
  rcases sameWorkspace_eq_true.mp same with ⟨role, chan, known, found⟩
  unfold isElevatedUser at elevated
  rw [known] at elevated
  exact canUserSeeChannel_eq_true.mpr ⟨role, chan, known, found, .inl elevated⟩

theorem userIsChannelMember_of_admin (admin : userIsChannelMember db userId channelId true = true) :
    userIsChannelMember db userId channelId false = true := by
  unfold userIsChannelMember at admin ⊢
  split at admin
  · rfl
  · cases admin

theorem canUserSeeChannel_of_member (member : userIsChannelMember db userId channelId false = true)
    (same : sameWorkspace db userId channelId = true) :
    canUserSeeChannel db userId channelId = true := by
  rcases sameWorkspace_eq_true.mp same with ⟨role, chan, known, found⟩
  exact canUserSeeChannel_eq_true.mpr ⟨role, chan, known, found, .inr (.inr member)⟩

theorem canUserSeeChannel_of_post (posts : canUserPostMessage db userId channelId = true) :
    canUserSeeChannel db userId channelId = true := by
  unfold canUserPostMessage at posts
  split at posts
  · cases posts
  · rename_i role userWid known
    split at posts
    · cases posts
    · rename_i chan found
      split at posts
      · cases posts
      · rename_i usable
        have same : chan.workspaceId = userWid := by
          by_contra apart
          exact usable (.inl apart)
        subst same
        split at posts
        · rename_i elevated
          exact canUserSeeChannel_eq_true.mpr ⟨role, chan, known, found, .inl elevated⟩
        · split at posts
          · cases posts
          · rename_i sees
            simpa only [Bool.not_eq_true', Bool.not_eq_false] using sees

theorem canUserAdminChannel_eq_true : canUserAdminChannel db userId channelId = true <->
      (getUserRole db userId).isSome = true ∧
        (isElevatedUser db userId = true ∨ userIsChannelMember db userId channelId true = true) := by
  unfold canUserAdminChannel isElevatedUser
  cases getUserRole db userId with
  | none => simp only [Bool.false_eq_true, Option.isSome_none, false_and]
  | some pair =>
    dsimp only
    split
    · rename_i elevated
      exact iff_of_true rfl ⟨rfl, .inl elevated⟩
    · rename_i plain
      simp only [plain, Option.isSome_some, true_and, Bool.false_eq_true, false_or]

theorem canUserEditMessage_eq_true {messageId : UUID} :
    canUserEditMessage db userId messageId = true <->
      ∃ msg, db.message messageId = some msg ∧ msg.deletedAt = none ∧
        (isElevatedUser db userId = true ∨
          (msg.authorId = userId ∧ canUserSeeChannel db userId msg.channelId = true)) := by
  unfold canUserEditMessage
  cases db.message messageId with
  | none => simp only [Bool.false_eq_true, reduceCtorEq, false_and, exists_false]
  | some msg =>
    simp only [Option.some_inj, exists_eq_left']
    split
    · rename_i deleted
      exact iff_of_false Bool.false_ne_true fun held => deleted held.1
    · rename_i present
      rw [not_not] at present
      cases known : getUserRole db userId with
      | none =>
        refine iff_of_false Bool.false_ne_true ?_
        rintro ⟨_, elevated | ⟨_, sees⟩⟩
        · unfold isElevatedUser at elevated
          rw [known] at elevated
          cases elevated
        · rcases canUserSeeChannel_eq_true.mp sees with ⟨role, chan, active, _⟩
          rw [known] at active
          cases active
      | some pair =>
        have elevation : isElevatedUser db userId = pair.1.isElevated := by
          unfold isElevatedUser
          rw [known]
        rw [elevation]
        dsimp only
        split
        · rename_i elevated
          exact iff_of_true rfl ⟨present, .inl elevated⟩
        · rename_i plain
          split
          · rename_i foreign
            refine iff_of_false Bool.false_ne_true ?_
            rintro ⟨_, elevated | ⟨own, _⟩⟩
            · exact plain elevated
            · exact foreign own
          · rename_i own
            simp only [present, plain, not_not.mp own, true_and, Bool.false_eq_true, false_or]

end Messenger
end BreadMind
