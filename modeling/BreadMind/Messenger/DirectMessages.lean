import BreadMind.Execution.Machine
import BreadMind.Messenger.Membership
import Mathlib.Data.Char
import Mathlib.Data.List.Forall2
import Mathlib.Data.List.Lex
import Mathlib.Data.List.Sort

namespace BreadMind
namespace Messenger

open Execution

/-!
# Opening direct messages

A direct message is found again by a key, a digest of who was in it when it was
opened.  The key is looked up in one statement and written in another, and the
memberships themselves change through `add_members` and `remove_member`.

A run interleaves the statements of any number of opens with single insertions
and deletions of memberships.  The three kinds of rows of a new channel are
written in one transaction, which is one step.
-/

variable {Digest : Type}

structure DmKey (Digest : Type) where
  workspaceId : UUID
  membersHash : Digest
  channelId : UUID

def DmKey.membersKey (key : DmKey Digest) : Option (UUID × Digest) :=
  some (key.workspaceId, key.membersHash)

def DmKey.channelKey (key : DmKey Digest) : Option UUID :=
  some key.channelId

structure Directory (Digest : Type) where
  db : Database
  keys : List (DmKey Digest) := []
  keysByMembers : Unique DmKey.membersKey keys
  keysByChannel : Unique DmKey.channelKey keys

inductive OpenError where
  | validationFailed (field msg : String)
  | foreignKeyViolation
  | uniqueViolation
  /-- `dict(None)`, when the channel of a key is not there. -/
  | channelGone
  /-- A statement raises for a reason of its own. -/
  | raised (kind : String)
  deriving DecidableEq

structure OpenRequest where
  workspaceId : UUID
  openerId : UUID
  memberIds : List UUID
  deriving DecidableEq

/-- What is hashed: the workspace and the sorted members, each one closed by a
zero character. -/
def dmMemberText (workspaceId : UUID) (userIds : List UUID) : List Char :=
  let sortedIds := (userIds.dedup.map UUID.chars).insertionSort (· ≤ ·)
  workspaceId.chars ++ Char.ofNat 0 :: sortedIds.flatMap fun uid => uid ++ [Char.ofNat 0]

def dmMemberHash (sha256 : List Char -> Digest) (workspaceId : UUID) (userIds : List UUID) : Digest :=
  sha256 (dmMemberText workspaceId userIds)

/-- `sorted(set(member_ids) | {opener_id})`. -/
def OpenRequest.allMembers (request : OpenRequest) : List UUID :=
  (request.openerId :: request.memberIds).dedup.insertionSort (· ≤ ·)

def ChannelRow.isDirect (row : ChannelRow) : Bool :=
  row.kind = .dm || row.kind = .mpdm

def Database.membersOf (db : Database) (channelId : UUID) : List UUID :=
  (db.members.filter fun row => row.channelId = channelId).map MemberRow.userId

/-- The insertions into `channel_members`, which ask for no conflict to be ignored. -/
def insertMembers (db : Database) (channelId : UUID) : List UUID -> Except OpenError Database
  | [] => .ok db
  | userId :: rest =>
    let row : MemberRow := { channelId, userId, role := .member }
    if free : ∀ other ∈ db.members, ¬ Clashes MemberRow.key other row then
      if (db.user userId).isSome then
        insertMembers { db with
          members := db.members ++ [row]
          membersByPair := members_insert free } channelId rest
      else .error .foreignKeyViolation
    else .error .uniqueViolation

def insertChannel (db : Database) (row : ChannelRow) (createdBy : UUID) : Except OpenError Database :=
  if free : ∀ other ∈ db.channels, ¬ Clashes ChannelRow.key other row then
    if (db.user createdBy).isSome then
      .ok { db with
        channels := db.channels ++ [row]
        channelsById := db.channelsById.insert free }
    else .error .foreignKeyViolation
  else .error .uniqueViolation

section Opening

variable [DecidableEq Digest] (sha256 : List Char -> Digest)

def insertKey (db : Database) (keys : List (DmKey Digest)) (byMembers : Unique DmKey.membersKey keys)
    (byChannel : Unique DmKey.channelKey keys) (key : DmKey Digest) :
    Except OpenError (Directory Digest) :=
  if free : (∀ other ∈ keys, ¬ Clashes DmKey.membersKey other key) ∧
      (∀ other ∈ keys, ¬ Clashes DmKey.channelKey other key) then
    .ok {
      db
      keys := keys ++ [key]
      keysByMembers := byMembers.insert free.1
      keysByChannel := byChannel.insert free.2 }
  else .error .uniqueViolation

variable (request : OpenRequest)

def OpenRequest.membersHash : Digest :=
  dmMemberHash sha256 request.workspaceId request.allMembers

def OpenRequest.newChannel (cid : UUID) : ChannelRow where
  id := cid
  workspaceId := request.workspaceId
  kind := if request.allMembers.length = 2 then .dm else .mpdm
  postingPolicy := .all
  isArchived := false

variable (directory : Directory Digest)

def createDm (request : OpenRequest) (cid : UUID) : Except OpenError (Directory Digest) := do
  let db <- insertChannel directory.db (request.newChannel cid) request.openerId
  let keyed <- insertKey db directory.keys directory.keysByMembers directory.keysByChannel {
    workspaceId := request.workspaceId
    membersHash := request.membersHash sha256
    channelId := cid }
  let db <- insertMembers keyed.db cid request.allMembers
  return { keyed with db }

abbrev OpenAnswer := Except OpenError (ChannelRow × Bool)

inductive OpenPhase where
  /-- The key has been found, and its channel is fetched next. -/
  | found (request : OpenRequest) (channelId : UUID)
  | missing (request : OpenRequest)
  | done (answer : OpenAnswer)

/-- The checks and the look-up of the key. -/
def OpenRequest.lookUp : OpenPhase :=
  if request.allMembers.length < 2 then
    .done (.error (.validationFailed "user_ids" "DM needs at least 2 participants (incl. opener)"))
  else if request.allMembers.length > 9 then
    .done (.error (.validationFailed "user_ids" "MPDM max 9 participants"))
  else
    match lookup DmKey.membersKey directory.keys (request.workspaceId, request.membersHash sha256) with
    | some key => .found request key.channelId
    | none => .missing request

structure Openings (Digest : Type) where
  directory : Directory Digest
  phases : Nat -> Option OpenPhase

inductive DmInput where
  | begin (task : Nat) (request : OpenRequest)
  | fetch (task : Nat)
  | create (task : Nat) (cid : UUID)
  /-- The statement which the task is waiting for raises. -/
  | crash (task : Nat) (kind : String)
  /-- One insertion of `add_members`. -/
  | join (channelId userId : UUID)
  | leave (channelId userId : UUID)

namespace Openings

def goTo (openings : Openings Digest) (task : Nat) (phase : OpenPhase) : Openings Digest :=
  { openings with phases := Function.update openings.phases task (some phase) }

def fetchChannel (directory : Directory Digest) (channelId : UUID) : OpenAnswer :=
  match directory.db.channel channelId with
  | some row => .ok (row, false)
  | none => .error .channelGone

def step (openings : Openings Digest) : DmInput -> Openings Digest
  | .begin task request =>
    match openings.phases task with
    | none => openings.goTo task (request.lookUp sha256 openings.directory)
    | some _ => openings
  | .fetch task =>
    match openings.phases task with
    | some (.found _ channelId) =>
      openings.goTo task (.done (fetchChannel openings.directory channelId))
    | _ => openings
  | .create task cid =>
    match openings.phases task with
    | some (.missing request) =>
      match createDm sha256 openings.directory request cid with
      | .ok directory =>
        { openings with directory }.goTo task (.done (.ok (request.newChannel cid, true)))
      | .error error => openings.goTo task (.done (.error error))
    | _ => openings
  | .crash task kind =>
    match openings.phases task with
    | some (.done _) => openings
    | _ => openings.goTo task (.done (.error (.raised kind)))
  | .join channelId userId =>
    match addMember openings.directory.db channelId userId with
    | some db => { openings with directory := { openings.directory with db } }
    | none => openings
  | .leave channelId userId => { openings with
      directory := { openings.directory with db := removeMember openings.directory.db channelId userId } }

end Openings

def dmMachine (start : Directory Digest) : Machine (Openings Digest) DmInput where
  initial := { directory := start, phases := fun _ => none }
  step := Openings.step sha256

/-! ## What is asked of the opens, and when they keep it -/

variable (openings : Openings Digest)

/-- Two direct channels of a workspace differ in who is in them. -/
def OneChannelPerSet : Prop :=
  ∀ chan other, chan ∈ openings.directory.db.channels -> other ∈ openings.directory.db.channels ->
    chan.isDirect = true -> other.isDirect = true -> chan.workspaceId = other.workspaceId ->
    (∀ userId, userId ∈ openings.directory.db.membersOf chan.id <->
      userId ∈ openings.directory.db.membersOf other.id) -> chan = other

def Openings.requestOf (input : DmInput) (task : Nat) : Option OpenRequest :=
  match openings.phases task, input with
  | some (.found request _), _ => some request
  | some (.missing request), _ => some request
  | none, .begin other request => if other = task then some request else none
  | _, _ => none

/-- A failure which is not due to another open or to a change of members. -/
def OpenError.IsExcused : OpenError -> Prop
  | .uniqueViolation => False
  | .channelGone => False
  | _ => True

/-- The channel is the one of the request: exactly the opener and the requested
members are in it. -/
structure Serves (db : Database) (request : OpenRequest) (chan : ChannelRow) : Prop where
  stored : chan ∈ db.channels
  direct : chan.isDirect = true
  workspace : chan.workspaceId = request.workspaceId
  members : ∀ userId, userId ∈ db.membersOf chan.id <->
    userId = request.openerId ∨ userId ∈ request.memberIds

/-- An open which ends with the step returns the channel of its request, unless
it fails for an excused reason. -/
def AnswersOpen (input : DmInput) : Prop :=
  ∀ task request answer, openings.requestOf input task = some request ->
    (openings.step sha256 input).phases task = some (.done answer) ->
      match answer with
      | .ok (chan, _) => Serves (openings.step sha256 input).directory.db request chan
      | .error error => error.IsExcused

/-- The other request names the same members, in any order and any number of times. -/
def OpenRequest.Same (other : OpenRequest) : Prop :=
  request.workspaceId = other.workspaceId ∧ request.openerId = other.openerId ∧
    ∀ userId, userId ∈ request.memberIds <-> userId ∈ other.memberIds

inductive DmInput.Same : DmInput -> DmInput -> Prop
  | begin {task : Nat} {request other : OpenRequest} :
      request.Same other -> DmInput.Same (.begin task request) (.begin task other)
  | refl (input : DmInput) : DmInput.Same input input

def Openings.Agree (other : Openings Digest) : Prop :=
  openings.directory = other.directory ∧ ∀ task answer,
    openings.phases task = some (.done answer) <-> other.phases task = some (.done answer)

/-- In each direct channel are the members of its key. -/
structure KeysAgree : Prop where
  keyed : ∀ chan ∈ directory.db.channels, chan.isDirect = true ->
    ∃ key ∈ directory.keys, key.channelId = chan.id ∧
      key.workspaceId = chan.workspaceId ∧
      key.membersHash = dmMemberHash sha256 chan.workspaceId (directory.db.membersOf chan.id)
  opened : ∀ key ∈ directory.keys, ∃ chan ∈ directory.db.channels,
    chan.id = key.channelId ∧ chan.isDirect = true ∧ chan.workspaceId = key.workspaceId
  /-- The foreign key of `channel_members`. -/
  located : ∀ row ∈ directory.db.members,
    ∃ chan ∈ directory.db.channels, chan.id = row.channelId

/-- Nobody joins or leaves a direct channel, no other open of the same members
has come first when a channel is created, the new identifier is new, and the
digest tells a request from the channels with other members. -/
def Undisturbed : DmInput -> Prop
  | .begin _ request => ∀ chan ∈ openings.directory.db.channels, chan.isDirect = true ->
      chan.workspaceId = request.workspaceId ->
      dmMemberHash sha256 chan.workspaceId (openings.directory.db.membersOf chan.id) =
        request.membersHash sha256 ->
      dmMemberText chan.workspaceId (openings.directory.db.membersOf chan.id) =
        dmMemberText request.workspaceId request.allMembers
  | .create task cid => openings.directory.db.channel cid = none ∧
      ∀ request, openings.phases task = some (.missing request) ->
        lookup DmKey.membersKey openings.directory.keys
          (request.workspaceId, request.membersHash sha256) = none
  | .join channelId userId => ∀ chan ∈ openings.directory.db.channels,
      chan.isDirect = true -> chan.id = channelId ->
      userId ∈ openings.directory.db.membersOf channelId
  | .leave channelId userId => ∀ chan ∈ openings.directory.db.channels,
      chan.isDirect = true -> chan.id = channelId ->
      userId ∉ openings.directory.db.membersOf channelId
  | _ => True

end Opening

/-! ## The sorted members -/

section Members

variable {ids others : List UUID} {workspaceId other : UUID}

theorem mem_allMembers {request : OpenRequest} {userId : UUID} :
    userId ∈ request.allMembers <-> userId = request.openerId ∨ userId ∈ request.memberIds := by
  unfold OpenRequest.allMembers
  rw [List.mem_insertionSort, List.mem_dedup, List.mem_cons]

theorem nodup_allMembers (request : OpenRequest) : request.allMembers.Nodup :=
  (List.perm_insertionSort _ _).nodup_iff.mpr (List.nodup_dedup _)

theorem allMembers_congr {request second : OpenRequest} (same : request.Same second) :
    request.allMembers = second.allMembers := by
  have perm : (request.openerId :: request.memberIds).dedup.Perm
      (second.openerId :: second.memberIds).dedup := by
    refine (List.perm_ext_iff_of_nodup (List.nodup_dedup _) (List.nodup_dedup _)).mpr fun userId => ?_
    rw [List.mem_dedup, List.mem_dedup, List.mem_cons, List.mem_cons, same.2.1, same.2.2 userId]
  have sorted := (List.perm_insertionSort (· ≤ ·) _).trans
    (perm.trans (List.perm_insertionSort (· ≤ ·) _).symm)
  exact sorted.eq_of_pairwise (fun _ _ _ _ => BitVec.le_antisymm)
    (List.pairwise_insertionSort _ _) (List.pairwise_insertionSort _ _)

theorem dmMemberText_congr (same : ∀ userId, userId ∈ ids <-> userId ∈ others) :
    dmMemberText workspaceId ids = dmMemberText workspaceId others := by
  have perm : ids.dedup.Perm others.dedup := by
    refine (List.perm_ext_iff_of_nodup (List.nodup_dedup _) (List.nodup_dedup _)).mpr fun userId => ?_
    rw [List.mem_dedup, List.mem_dedup, same userId]
  have sorted := (List.perm_insertionSort (· ≤ ·) _).trans
    ((perm.map UUID.chars).trans (List.perm_insertionSort (· ≤ ·) _).symm)
  have equal := sorted.eq_of_pairwise (fun _ _ _ _ => le_antisymm)
    (List.pairwise_insertionSort _ _) (List.pairwise_insertionSort _ _)
  unfold dmMemberText
  rw [equal]

theorem closed_inj {first second : List (List Char)} (long : ∀ text ∈ first, text.length = 36)
    (longToo : ∀ text ∈ second, text.length = 36) (close : Char)
    (same : first.flatMap (fun uid => uid ++ [close]) = second.flatMap (fun uid => uid ++ [close])) :
    first = second := by
  induction first generalizing second with
  | nil =>
    cases second with
    | nil => rfl
    | cons head tail =>
      have lengths := congrArg List.length same
      simp at lengths
  | cons head tail ih =>
    cases second with
    | nil =>
      have lengths := congrArg List.length same
      simp at lengths
    | cons first rest =>
      rw [List.flatMap_cons, List.flatMap_cons, List.append_assoc, List.append_assoc] at same
      have headLong := long head List.mem_cons_self
      have firstLong := longToo first List.mem_cons_self
      have parts := List.append_inj same (headLong.trans firstLong.symm)
      have remaining := (List.append_inj parts.2 rfl).2
      rw [parts.1, ih (fun text member => long text (List.mem_cons_of_mem _ member))
        (fun text member => longToo text (List.mem_cons_of_mem _ member)) remaining]

theorem mem_of_dmMemberText (same : dmMemberText workspaceId ids = dmMemberText other others)
    (userId : UUID) : userId ∈ ids <-> userId ∈ others := by
  unfold dmMemberText at same
  have parts := List.append_inj same
    ((UUID.length_chars workspaceId).trans (UUID.length_chars other).symm)
  have sorted : ∀ (some : List UUID) (text : List Char),
      text ∈ (some.dedup.map UUID.chars).insertionSort (· ≤ ·) <->
        ∃ userId ∈ some, userId.chars = text := by
    intro some text
    rw [List.mem_insertionSort, List.mem_map]
    exact exists_congr fun userId => and_congr_left' List.mem_dedup
  have long : ∀ (some : List UUID) (text : List Char),
      text ∈ (some.dedup.map UUID.chars).insertionSort (· ≤ ·) -> text.length = 36 := by
    intro some text member
    rcases (sorted some text).mp member with ⟨userId, _, rfl⟩
    exact UUID.length_chars userId
  have equal := closed_inj (long ids) (long others) _ (List.tail_eq_of_cons_eq parts.2)
  have named : ∀ some : List UUID, userId ∈ some <->
      userId.chars ∈ (some.dedup.map UUID.chars).insertionSort (· ≤ ·) := by
    intro some
    rw [sorted]
    constructor
    · intro member
      exact ⟨userId, member, rfl⟩
    · rintro ⟨named, member, text⟩
      exact UUID.chars_injective text ▸ member
  rw [named ids, named others, equal]

end Members

/-! ## What the statements write -/

section Tables

variable {db after : Database} {channelId userId : UUID}

theorem mem_membersOf : userId ∈ db.membersOf channelId <->
    ∃ row ∈ db.members, row.channelId = channelId ∧ row.userId = userId := by
  unfold Database.membersOf
  simp only [List.mem_map, List.mem_filter, decide_eq_true_eq, and_assoc]

def memberRows (channelId : UUID) (ids : List UUID) : List MemberRow :=
  ids.map fun userId => { channelId, userId, role := .member }

structure Joined (db : Database) (channelId : UUID) (ids : List UUID) (after : Database) : Prop where
  users : after.users = db.users
  channels : after.channels = db.channels
  members : after.members = db.members ++ memberRows channelId ids

variable {ids : List UUID}

theorem joined_of_insertMembers
    (inserted : insertMembers db channelId ids = .ok after) : Joined db channelId ids after := by
  induction ids generalizing db with
  | nil =>
    cases inserted
    exact ⟨rfl, rfl, (List.append_nil _).symm⟩
  | cons userId rest ih =>
    simp only [insertMembers] at inserted
    split at inserted
    · split at inserted
      · have joined := ih inserted
        refine ⟨joined.users, joined.channels, ?_⟩
        rw [joined.members, List.append_assoc]
        rfl
      · cases inserted
    · cases inserted

theorem excused_of_insertMembers {error : OpenError} (distinct : ids.Nodup)
    (fresh : ∀ row ∈ db.members, row.channelId = channelId -> row.userId ∉ ids)
    (failed : insertMembers db channelId ids = .error error) : error.IsExcused := by
  induction ids generalizing db with
  | nil => cases failed
  | cons userId rest ih =>
    have parts := List.nodup_cons.mp distinct
    simp only [insertMembers] at failed
    split at failed
    · split at failed
      · refine ih parts.2 ?_ failed
        intro row member here
        rcases List.mem_append.mp member with old | new
        · exact fun later => fresh row old here (List.mem_cons_of_mem _ later)
        · rw [List.mem_singleton.mp new]
          exact parts.1
      · cases failed
        trivial
    · rename_i taken
      refine False.elim (taken ?_)
      rintro row member ⟨_, same⟩
      cases same
      exact fresh row member rfl List.mem_cons_self

theorem membersOf_append_self (joined : after.members = db.members ++ memberRows channelId ids) :
    after.membersOf channelId = db.membersOf channelId ++ ids := by
  have here : (fun row : MemberRow => decide (row.channelId = channelId)) ∘
      (fun userId => { channelId, userId, role := .member }) = fun _ => true :=
    funext fun _ => decide_eq_true rfl
  unfold Database.membersOf
  rw [joined, memberRows, List.filter_append, List.map_append, List.filter_map, here,
    List.filter_true, List.map_map]
  exact congrArg _ (List.map_id ids)

theorem membersOf_append_ne {other : UUID}
    (joined : after.members = db.members ++ memberRows channelId ids) (apart : other ≠ channelId) :
    after.membersOf other = db.membersOf other := by
  have elsewhere : (fun row : MemberRow => decide (row.channelId = other)) ∘
      (fun userId => { channelId, userId, role := .member }) = fun _ => false :=
    funext fun _ => decide_eq_false apart.symm
  unfold Database.membersOf
  rw [joined, memberRows, List.filter_append, List.filter_map, elsewhere, List.filter_false,
    List.map_nil, List.append_nil]

theorem membersOf_removeMember_ne {other : UUID} (apart : other ≠ channelId) :
    (removeMember db channelId userId).membersOf other = db.membersOf other := by
  unfold Database.membersOf removeMember
  rw [List.filter_filter]
  refine congrArg _ (List.filter_congr fun row member => ?_)
  by_cases here : row.channelId = other
  · subst here
    simp [apart]
  · simp [here]

theorem membersOf_removeMember_absent (absent : userId ∉ db.membersOf channelId) (other : UUID) :
    (removeMember db channelId userId).membersOf other = db.membersOf other := by
  unfold Database.membersOf removeMember
  refine congrArg (fun rows => (List.filter _ rows).map _) (List.filter_eq_self.mpr fun row member => ?_)
  rw [Bool.not_eq_true', Bool.and_eq_false_iff, decide_eq_false_iff_not, decide_eq_false_iff_not]
  by_contra both
  rw [not_or, not_not, not_not] at both
  exact absent (mem_membersOf.mpr ⟨row, member, both⟩)

theorem addMember_cases (added : addMember db channelId userId = some after) :
    after = db ∨ (Joined db channelId [userId] after ∧ userId ∉ db.membersOf channelId ∧
      ∃ chan ∈ db.channels, chan.id = channelId) := by
  unfold addMember at added
  dsimp only at added
  split at added
  · rename_i known
    rw [Bool.and_eq_true] at known
    split at added
    · rename_i free
      cases added
      refine .inr ⟨⟨rfl, rfl, rfl⟩, ?_, ?_⟩
      · intro member
        rcases mem_membersOf.mp member with ⟨row, stored, rfl, rfl⟩
        exact free row stored ⟨Option.some_ne_none _, rfl⟩
      · rcases Option.isSome_iff_exists.mp known.1 with ⟨chan, found⟩
        exact ⟨chan, Database.channel_eq_some.mp found⟩
    · cases added
      exact .inl rfl
  · cases added

structure Founded (db : Database) (row : ChannelRow) (after : Database) : Prop where
  fresh : ∀ chan ∈ db.channels, chan.id ≠ row.id
  users : after.users = db.users
  channels : after.channels = db.channels ++ [row]
  members : after.members = db.members

theorem founded_of_insertChannel {row : ChannelRow} {createdBy : UUID}
    (inserted : insertChannel db row createdBy = .ok after) : Founded db row after := by
  unfold insertChannel at inserted
  split at inserted
  · rename_i free
    split at inserted
    · cases inserted
      refine ⟨?_, rfl, rfl, rfl⟩
      intro chan member same
      exact free chan member ⟨Option.some_ne_none _, congrArg some same⟩
    · cases inserted
  · cases inserted

theorem excused_of_insertChannel {row : ChannelRow} {createdBy : UUID} {error : OpenError}
    (fresh : ∀ chan ∈ db.channels, chan.id ≠ row.id)
    (failed : insertChannel db row createdBy = .error error) : error.IsExcused := by
  unfold insertChannel at failed
  split at failed
  · split at failed
    · cases failed
    · cases failed
      trivial
  · rename_i taken
    refine False.elim (taken ?_)
    rintro chan member ⟨_, same⟩
    exact fresh chan member (Option.some_inj.mp same)

end Tables

section Creating

variable {sha256 : List Char -> Digest}
variable {directory after : Directory Digest} {request : OpenRequest} {cid : UUID}

def OpenRequest.newKey (sha256 : List Char -> Digest) (request : OpenRequest) (cid : UUID) :
    DmKey Digest where
  workspaceId := request.workspaceId
  membersHash := request.membersHash sha256
  channelId := cid

structure Created (sha256 : List Char -> Digest) (directory : Directory Digest)
    (request : OpenRequest) (cid : UUID) (after : Directory Digest) : Prop where
  fresh : ∀ chan ∈ directory.db.channels, chan.id ≠ cid
  channels : after.db.channels = directory.db.channels ++ [request.newChannel cid]
  keys : after.keys = directory.keys ++ [request.newKey sha256 cid]
  members : after.db.members = directory.db.members ++ memberRows cid request.allMembers

theorem created_of_createDm [DecidableEq Digest]
    (created : createDm sha256 directory request cid = .ok after) :
    Created sha256 directory request cid after := by
  unfold createDm at created
  cases founded : insertChannel directory.db (request.newChannel cid) request.openerId with
  | error error => simp only [founded, bind, Except.bind, reduceCtorEq] at created
  | ok db =>
    have first := founded_of_insertChannel founded
    simp only [founded, bind, Except.bind, insertKey] at created
    split at created
    · cases created
    · rename_i keyed inserted
      split at inserted
      · cases inserted
        dsimp only at created
        split at created
        · cases created
        · rename_i joined
          have last := joined_of_insertMembers joined
          cases created
          refine ⟨first.fresh, last.channels.trans first.channels, rfl, ?_⟩
          rw [← first.members]
          exact last.members
      · cases inserted

theorem excused_of_createDm [DecidableEq Digest] {error : OpenError} (agree : KeysAgree sha256 directory)
    (unused : directory.db.channel cid = none)
    (free : lookup DmKey.membersKey directory.keys (request.workspaceId, request.membersHash sha256) = none)
    (failed : createDm sha256 directory request cid = .error error) : error.IsExcused := by
  have fresh : ∀ chan ∈ directory.db.channels, chan.id ≠ cid := by
    intro chan member same
    cases unused.symm.trans (Database.channel_eq_some.mpr ⟨member, same⟩)
  unfold createDm at failed
  cases founded : insertChannel directory.db (request.newChannel cid) request.openerId with
  | error other =>
    simp only [founded, bind, Except.bind, Except.error.injEq] at failed
    exact failed ▸ excused_of_insertChannel fresh founded
  | ok db =>
    have first := founded_of_insertChannel founded
    simp only [founded, bind, Except.bind, insertKey] at failed
    split at failed
    · rename_i inserted
      split at inserted
      · cases inserted
      · rename_i taken
        refine False.elim (taken ⟨?_, ?_⟩)
        · rintro key member ⟨_, same⟩
          exact lookup_eq_none.mp free key member same
        · rintro key member ⟨_, same⟩
          rcases agree.opened key member with ⟨chan, stored, named, _⟩
          exact fresh chan stored (named.trans (Option.some_inj.mp same))
    · rename_i keyed inserted
      split at inserted
      · cases inserted
        dsimp only at failed
        split at failed
        · rename_i joined
          cases failed
          refine excused_of_insertMembers (nodup_allMembers request) ?_ joined
          intro row member here
          rw [first.members] at member
          rcases agree.located row member with ⟨chan, stored, named⟩
          exact False.elim (fresh chan stored (named.trans here))
        · cases failed
      · cases inserted

/-! ## Channels and keys keep agreeing -/

def DirectKept (db after : Database) : Prop :=
  ∀ chan ∈ db.channels, chan.isDirect = true ->
    chan ∈ after.channels ∧ after.membersOf chan.id = db.membersOf chan.id

theorem Created.directKept (created : Created sha256 directory request cid after) :
    DirectKept directory.db after.db := by
  intro chan member _
  rw [created.channels]
  exact ⟨List.mem_append_left _ member, membersOf_append_ne created.members (created.fresh chan member)⟩

theorem isDirect_newChannel : (request.newChannel cid).isDirect = true := by
  unfold ChannelRow.isDirect OpenRequest.newChannel
  dsimp only
  split <;> rfl

theorem Created.membersOf (created : Created sha256 directory request cid after)
    (agree : KeysAgree sha256 directory) : after.db.membersOf cid = request.allMembers := by
  have none_ : directory.db.membersOf cid = [] := by
    refine List.eq_nil_iff_forall_not_mem.mpr fun userId member => ?_
    rcases mem_membersOf.mp member with ⟨row, stored, here, _⟩
    rcases agree.located row stored with ⟨chan, known, named⟩
    exact created.fresh chan known (named.trans here)
  rw [membersOf_append_self created.members, none_, List.nil_append]

theorem Created.serves (created : Created sha256 directory request cid after)
    (agree : KeysAgree sha256 directory) : Serves after.db request (request.newChannel cid) where
  stored := created.channels ▸ List.mem_append_right _ (List.mem_singleton_self _)
  direct := isDirect_newChannel
  workspace := rfl
  members := by
    intro userId
    change userId ∈ after.db.membersOf cid <-> _
    rw [created.membersOf agree, mem_allMembers]

theorem Created.agree (created : Created sha256 directory request cid after)
    (agree : KeysAgree sha256 directory) : KeysAgree sha256 after where
  keyed := by
    intro chan member direct
    rw [created.keys]
    rw [created.channels] at member
    rcases List.mem_append.mp member with old | new
    · rcases agree.keyed chan old direct with ⟨key, stored, named, workspace, hash⟩
      refine ⟨key, List.mem_append_left _ stored, named, workspace, ?_⟩
      rw [hash, (created.directKept chan old direct).2]
    · rw [List.mem_singleton.mp new]
      refine ⟨_, List.mem_append_right _ (List.mem_singleton_self _), rfl, rfl, ?_⟩
      change request.membersHash sha256 = dmMemberHash sha256 request.workspaceId (after.db.membersOf cid)
      rw [created.membersOf agree]
      rfl
  opened := by
    intro key member
    rw [created.channels]
    rw [created.keys] at member
    rcases List.mem_append.mp member with old | new
    · rcases agree.opened key old with ⟨chan, stored, rest⟩
      exact ⟨chan, List.mem_append_left _ stored, rest⟩
    · rw [List.mem_singleton.mp new]
      exact ⟨_, List.mem_append_right _ (List.mem_singleton_self _), rfl, isDirect_newChannel, rfl⟩
  located := by
    intro row member
    rw [created.channels]
    rw [created.members] at member
    rcases List.mem_append.mp member with old | new
    · rcases agree.located row old with ⟨chan, stored, named⟩
      exact ⟨chan, List.mem_append_left _ stored, named⟩
    · rcases List.mem_map.mp new with ⟨userId, _, rfl⟩
      exact ⟨_, List.mem_append_right _ (List.mem_singleton_self _), rfl⟩

variable {db : Database}

theorem KeysAgree.change (agree : KeysAgree sha256 directory)
    (channels : db.channels = directory.db.channels) (kept : DirectKept directory.db db)
    (located : ∀ row ∈ db.members, row ∈ directory.db.members ∨
      ∃ chan ∈ directory.db.channels, chan.id = row.channelId) :
    KeysAgree sha256 { directory with db } where
  keyed := by
    intro chan member direct
    change chan ∈ db.channels at member
    rw [channels] at member
    rcases agree.keyed chan member direct with ⟨key, stored, named, workspace, hash⟩
    refine ⟨key, stored, named, workspace, ?_⟩
    rw [hash]
    exact congrArg _ (kept chan member direct).2.symm
  opened := by
    intro key member
    rcases agree.opened key member with ⟨chan, stored, rest⟩
    exact ⟨chan, channels ▸ stored, rest⟩
  located := by
    intro row member
    change ∃ chan ∈ db.channels, _
    rw [channels]
    rcases located row member with old | new
    · exact agree.located row old
    · exact new

theorem directKept_of_addMember {after : Database} {channelId userId : UUID}
    (guarded : ∀ chan ∈ db.channels, chan.isDirect = true -> chan.id = channelId ->
      userId ∈ db.membersOf channelId)
    (joined : Joined db channelId [userId] after) (new : userId ∉ db.membersOf channelId) :
    DirectKept db after := by
  intro chan member direct
  refine ⟨joined.channels ▸ member, membersOf_append_ne joined.members fun here => ?_⟩
  exact new (guarded chan member direct here)

theorem directKept_of_removeMember {channelId userId : UUID}
    (guarded : ∀ chan ∈ db.channels, chan.isDirect = true -> chan.id = channelId ->
      userId ∉ db.membersOf channelId) : DirectKept db (removeMember db channelId userId) := by
  intro chan member direct
  refine ⟨member, ?_⟩
  by_cases here : chan.id = channelId
  · exact membersOf_removeMember_absent (guarded chan member direct here) chan.id
  · exact membersOf_removeMember_ne here

theorem oneChannelPerSet_of_agree {openings : Openings Digest}
    (agree : KeysAgree sha256 openings.directory) : OneChannelPerSet openings := by
  intro chan other member otherMember direct otherDirect workspace same
  rcases agree.keyed chan member direct with ⟨key, stored, named, inWorkspace, hash⟩
  rcases agree.keyed other otherMember otherDirect with ⟨second, storedToo, namedToo, inToo, hashToo⟩
  have text : sha256 (dmMemberText chan.workspaceId _) = sha256 (dmMemberText chan.workspaceId _) :=
    congrArg sha256 (dmMemberText_congr same)
  have primary : second.membersKey = key.membersKey := by
    unfold DmKey.membersKey
    rw [inToo, inWorkspace, hash, hashToo, ← workspace]
    exact congrArg (fun digest => some (chan.workspaceId, digest)) text.symm
  have one := openings.directory.keysByMembers.eq_of_mem stored storedToo rfl primary
  refine openings.directory.db.channelsById.eq_of_mem member otherMember rfl ?_
  unfold ChannelRow.key
  rw [← namedToo, ← one, named]

theorem serves_of_lookup [DecidableEq Digest] {key : DmKey Digest} (agree : KeysAgree sha256 directory)
    (told : ∀ chan ∈ directory.db.channels, chan.isDirect = true ->
      chan.workspaceId = request.workspaceId ->
      dmMemberHash sha256 chan.workspaceId (directory.db.membersOf chan.id) =
        request.membersHash sha256 ->
      dmMemberText chan.workspaceId (directory.db.membersOf chan.id) =
        dmMemberText request.workspaceId request.allMembers)
    (found : lookup DmKey.membersKey directory.keys (request.workspaceId, request.membersHash sha256) =
      some key) : ∃ chan, chan.id = key.channelId ∧ Serves directory.db request chan := by
  have ⟨stored, primary⟩ := lookup_sound found
  have parts := Prod.mk.inj (Option.some_inj.mp primary)
  rcases agree.opened key stored with ⟨chan, member, named, direct, workspace⟩
  rcases agree.keyed chan member direct with ⟨own, ownStored, ownNamed, _, hash⟩
  have one : own = key := directory.keysByChannel.eq_of_mem ownStored stored rfl
    (congrArg some (named.symm.trans ownNamed.symm))
  rw [one, parts.2] at hash
  have here : chan.workspaceId = request.workspaceId := workspace.trans parts.1
  have text := told chan member direct here hash.symm
  refine ⟨chan, named, member, direct, here, fun userId => ?_⟩
  rw [mem_of_dmMemberText text userId, mem_allMembers]

theorem Serves.kept {after : Database} {chan : ChannelRow} (serves : Serves db request chan)
    (kept : DirectKept db after) : Serves after request chan where
  stored := (kept chan serves.stored serves.direct).1
  direct := serves.direct
  workspace := serves.workspace
  members := by
    intro userId
    rw [(kept chan serves.stored serves.direct).2]
    exact serves.members userId

end Creating

section Steps

variable {sha256 : List Char -> Digest}
variable {openings : Openings Digest} {directory : Directory Digest} {task : Nat} {phase : OpenPhase}

namespace Openings

@[simp] theorem phases_goTo_self : (openings.goTo task phase).phases task = some phase :=
  Function.update_self ..

theorem phases_goTo_ne {other : Nat} (apart : other ≠ task) :
    (openings.goTo task phase).phases other = openings.phases other :=
  Function.update_of_ne apart ..

end Openings

/-- The tables agree, and a key that has been found leads to the channel of its request. -/
structure Sound (sha256 : List Char -> Digest) (openings : Openings Digest) : Prop where
  agree : KeysAgree sha256 openings.directory
  found : ∀ task request channelId, openings.phases task = some (.found request channelId) ->
    ∃ chan, chan.id = channelId ∧ Serves openings.directory.db request chan

namespace Sound

theorem change (sound : Sound sha256 openings) (agree : KeysAgree sha256 directory)
    (kept : DirectKept openings.directory.db directory.db) :
    Sound sha256 { openings with directory } where
  agree := agree
  found := by
    intro task request channelId at_
    rcases sound.found task request channelId at_ with ⟨chan, named, serves⟩
    exact ⟨chan, named, serves.kept kept⟩

theorem goTo (sound : Sound sha256 openings)
    (new : ∀ request channelId, phase = .found request channelId ->
      ∃ chan, chan.id = channelId ∧ Serves openings.directory.db request chan) :
    Sound sha256 (openings.goTo task phase) where
  agree := sound.agree
  found := by
    intro other request channelId at_
    by_cases here : other = task
    · subst here
      rw [Openings.phases_goTo_self] at at_
      exact new request channelId (Option.some_inj.mp at_)
    · rw [Openings.phases_goTo_ne here] at at_
      exact sound.found other request channelId at_

theorem step_members [DecidableEq Digest] (sound : Sound sha256 openings) {input : DmInput}
    (guarded : Undisturbed sha256 openings input) {channelId userId : UUID}
    (change : input = .join channelId userId ∨ input = .leave channelId userId) :
    Sound sha256 (openings.step sha256 input) := by
  rcases change with rfl | rfl
  · simp only [Openings.step]
    split
    · rename_i db added
      rcases addMember_cases added with rfl | ⟨joined, new, known⟩
      · exact sound
      · have kept := directKept_of_addMember guarded joined new
        refine sound.change (sound.agree.change joined.channels kept ?_) kept
        intro row member
        rw [joined.members] at member
        rcases List.mem_append.mp member with old | last
        · exact .inl old
        · rcases List.mem_map.mp last with ⟨_, _, rfl⟩
          exact .inr known
    · exact sound
  · have kept := directKept_of_removeMember guarded
    exact sound.change
      (sound.agree.change rfl kept fun row member => .inl (List.mem_filter.mp member).1) kept

theorem step [DecidableEq Digest] (sound : Sound sha256 openings) {input : DmInput}
    (guarded : Undisturbed sha256 openings input) : Sound sha256 (openings.step sha256 input) := by
  cases input with
  | begin task request =>
    simp only [Openings.step]
    split
    · refine sound.goTo ?_
      intro other channelId same
      unfold OpenRequest.lookUp at same
      split at same
      · cases same
      · split at same
        · cases same
        · split at same
          · rename_i key found
            cases same
            exact serves_of_lookup sound.agree guarded found
          · cases same
    · exact sound
  | fetch task =>
    simp only [Openings.step]
    split
    · exact sound.goTo fun _ _ same => nomatch same
    · exact sound
  | create task cid =>
    simp only [Openings.step]
    split
    · split
      · rename_i committed
        have created := created_of_createDm committed
        refine (sound.change (created.agree sound.agree) created.directKept).goTo ?_
        exact fun _ _ same => nomatch same
      · exact sound.goTo fun _ _ same => nomatch same
    · exact sound
  | crash task kind =>
    simp only [Openings.step]
    split
    · exact sound
    · exact sound.goTo fun _ _ same => nomatch same
  | join channelId userId => exact sound.step_members guarded (.inl rfl)
  | leave channelId userId => exact sound.step_members guarded (.inr rfl)

end Sound

variable {input : DmInput}

theorem requestOf_done {request : OpenRequest} {answer : OpenAnswer}
    (asked : openings.requestOf input task = some request) :
    openings.phases task ≠ some (.done answer) := by
  intro done
  simp only [Openings.requestOf, done, reduceCtorEq] at asked

theorem answered_goTo {request : OpenRequest} {answer : OpenAnswer} {other : Nat}
    (asked : openings.requestOf input task = some request)
    (answered : (Openings.goTo { openings with directory } other phase).phases task =
      some (.done answer)) : other = task ∧ phase = .done answer := by
  by_cases here : task = other
  · subst here
    rw [Openings.phases_goTo_self] at answered
    exact ⟨rfl, Option.some_inj.mp answered⟩
  · rw [Openings.phases_goTo_ne here] at answered
    exact False.elim (requestOf_done asked answered)

theorem answersOpen_of_sound [DecidableEq Digest] (sound : Sound sha256 openings)
    (guarded : Undisturbed sha256 openings input) : AnswersOpen sha256 openings input := by
  intro task request answer asked answered
  cases input with
  | begin other wanted =>
    simp only [Openings.step] at answered ⊢
    split at answered
    · have ended := (answered_goTo asked answered).2
      unfold OpenRequest.lookUp at ended
      split at ended
      · cases ended
        trivial
      · split at ended
        · cases ended
          trivial
        · split at ended <;> cases ended
    · exact False.elim (requestOf_done asked answered)
  | fetch other =>
    simp only [Openings.step] at answered ⊢
    split at answered
    · rename_i wanted channelId at_
      have ⟨here, ended⟩ := answered_goTo asked answered
      subst here
      simp only [Openings.requestOf, at_, Option.some.injEq] at asked
      rcases sound.found other wanted channelId at_ with ⟨chan, named, serves⟩
      have known := Database.channel_eq_some.mpr ⟨serves.stored, named⟩
      simp only [Openings.fetchChannel, known, OpenPhase.done.injEq] at ended
      rw [← ended, ← asked]
      exact serves
    · exact False.elim (requestOf_done asked answered)
  | create other cid =>
    simp only [Openings.step] at answered ⊢
    split at answered
    · rename_i wanted at_
      split at answered
      · rename_i committed
        have ⟨here, ended⟩ := answered_goTo asked answered
        subst here
        simp only [Openings.requestOf, at_, Option.some.injEq] at asked
        simp only [OpenPhase.done.injEq] at ended
        rw [← ended, ← asked]
        exact (created_of_createDm committed).serves sound.agree
      · rename_i error failed
        have ⟨here, ended⟩ := answered_goTo asked answered
        subst here
        simp only [OpenPhase.done.injEq] at ended
        rw [← ended]
        exact excused_of_createDm sound.agree guarded.1 (guarded.2 wanted at_) failed
    · exact False.elim (requestOf_done asked answered)
  | crash other kind =>
    simp only [Openings.step] at answered ⊢
    split at answered
    · exact False.elim (requestOf_done asked answered)
    · have ended := (answered_goTo asked answered).2
      cases ended
      trivial
  | join channelId userId =>
    have done : openings.phases task = some (.done answer) := by
      simp only [Openings.step] at answered
      split at answered <;> exact answered
    exact False.elim (requestOf_done asked done)
  | leave channelId userId => exact False.elim (requestOf_done asked answered)

end Steps

/-! ## The order of the members -/

section Order

variable {sha256 : List Char -> Digest}

inductive OpenPhase.Same : OpenPhase -> OpenPhase -> Prop
  | found {request other : OpenRequest} {channelId : UUID} :
      request.Same other -> OpenPhase.Same (.found request channelId) (.found other channelId)
  | missing {request other : OpenRequest} :
      request.Same other -> OpenPhase.Same (.missing request) (.missing other)
  | done (answer : OpenAnswer) : OpenPhase.Same (.done answer) (.done answer)

structure Openings.Simulates (openings other : Openings Digest) : Prop where
  directory : openings.directory = other.directory
  phases : ∀ task, Option.Rel OpenPhase.Same (openings.phases task) (other.phases task)

variable {request other : OpenRequest} {openings second : Openings Digest}

theorem membersHash_congr (same : request.Same other) :
    request.membersHash sha256 = other.membersHash sha256 := by
  unfold OpenRequest.membersHash
  rw [same.1, allMembers_congr same]

theorem newChannel_congr (same : request.Same other) (cid : UUID) :
    request.newChannel cid = other.newChannel cid := by
  unfold OpenRequest.newChannel
  rw [same.1, allMembers_congr same]

theorem createDm_congr [DecidableEq Digest] (same : request.Same other) (directory : Directory Digest) (cid : UUID) :
    createDm sha256 directory request cid = createDm sha256 directory other cid := by
  unfold createDm
  rw [newChannel_congr same, membersHash_congr same, allMembers_congr same, same.1, same.2.1]

theorem lookUp_same [DecidableEq Digest] (same : request.Same other) (directory : Directory Digest) :
    (request.lookUp sha256 directory).Same (other.lookUp sha256 directory) := by
  unfold OpenRequest.lookUp
  rw [membersHash_congr same, allMembers_congr same, same.1]
  split
  · exact .done _
  · split
    · exact .done _
    · split
      · exact .found same
      · exact .missing same

namespace Openings.Simulates

theorem goTo (simulates : Simulates openings second) {phase next : OpenPhase} (same : phase.Same next)
    (task : Nat) : Simulates (openings.goTo task phase) (second.goTo task next) where
  directory := simulates.directory
  phases := by
    intro other
    by_cases here : other = task
    · subst here
      rw [phases_goTo_self, phases_goTo_self]
      exact .some same
    · rw [phases_goTo_ne here, phases_goTo_ne here]
      exact simulates.phases other

theorem phase_cases (simulates : Simulates openings second) (task : Nat) :
    (openings.phases task = none ∧ second.phases task = none) ∨ (∃ request other channelId,
      OpenRequest.Same request other ∧ openings.phases task = some (.found request channelId) ∧
        second.phases task = some (.found other channelId)) ∨
    (∃ request other, OpenRequest.Same request other ∧
      openings.phases task = some (.missing request) ∧ second.phases task = some (.missing other)) ∨
    (∃ answer, openings.phases task = some (.done answer) ∧
      second.phases task = some (.done answer)) := by
  have related := simulates.phases task
  generalize openings.phases task = first, second.phases task = last at related
  cases related with
  | none => exact .inl ⟨rfl, rfl⟩
  | some same =>
    cases same with
    | found same => exact .inr (.inl ⟨_, _, _, same, rfl, rfl⟩)
    | missing same => exact .inr (.inr (.inl ⟨_, _, same, rfl, rfl⟩))
    | done answer => exact .inr (.inr (.inr ⟨answer, rfl, rfl⟩))

theorem change (simulates : Simulates openings second) (directory : Directory Digest) :
    Simulates { openings with directory } { second with directory } :=
  ⟨rfl, simulates.phases⟩

variable [DecidableEq Digest]

theorem step_begin (simulates : Simulates openings second) (same : request.Same other) (task : Nat) :
    Simulates (openings.step sha256 (.begin task request)) (second.step sha256 (.begin task other)) := by
  have looked : (request.lookUp sha256 openings.directory).Same (other.lookUp sha256 openings.directory) :=
    lookUp_same same openings.directory
  rw [simulates.directory] at looked
  rcases simulates.phase_cases task with ⟨at_, too⟩ | ⟨_, _, _, _, at_, too⟩ | ⟨_, _, _, at_, too⟩ | ⟨_, at_, too⟩
  · simp only [Openings.step, at_, too, simulates.directory]
    exact simulates.goTo looked task
  · simp only [Openings.step, at_, too]
    exact simulates
  · simp only [Openings.step, at_, too]
    exact simulates
  · simp only [Openings.step, at_, too]
    exact simulates

theorem step_create (simulates : Simulates openings second) (task : Nat) (cid : UUID) :
    Simulates (openings.step sha256 (.create task cid)) (second.step sha256 (.create task cid)) := by
  rcases simulates.phase_cases task with
    ⟨at_, too⟩ | ⟨_, _, _, _, at_, too⟩ | ⟨request, other, same, at_, too⟩ | ⟨_, at_, too⟩
  · simp only [Openings.step, at_, too]
    exact simulates
  · simp only [Openings.step, at_, too]
    exact simulates
  · simp only [Openings.step, at_, too, simulates.directory, createDm_congr same, newChannel_congr same]
    split
    · exact (simulates.change _).goTo (.done _) task
    · exact simulates.goTo (.done _) task
  · simp only [Openings.step, at_, too]
    exact simulates

theorem step (simulates : Simulates openings second) {input next : DmInput} (same : input.Same next) :
    Simulates (openings.step sha256 input) (second.step sha256 next) := by
  cases same with
  | begin same => exact simulates.step_begin same _
  | refl =>
    cases input with
    | begin task request => exact simulates.step_begin ⟨rfl, rfl, fun _ => Iff.rfl⟩ task
    | create task cid => exact simulates.step_create task cid
    | fetch task =>
      rcases simulates.phase_cases task with
        ⟨at_, too⟩ | ⟨_, _, channelId, _, at_, too⟩ | ⟨_, _, _, at_, too⟩ | ⟨_, at_, too⟩
      · simp only [Openings.step, at_, too]
        exact simulates
      · simp only [Openings.step, at_, too, simulates.directory]
        exact simulates.goTo (.done _) task
      · simp only [Openings.step, at_, too]
        exact simulates
      · simp only [Openings.step, at_, too]
        exact simulates
    | crash task kind =>
      rcases simulates.phase_cases task with
        ⟨at_, too⟩ | ⟨_, _, _, _, at_, too⟩ | ⟨_, _, _, at_, too⟩ | ⟨_, at_, too⟩
      · simp only [Openings.step, at_, too]
        exact simulates.goTo (.done _) task
      · simp only [Openings.step, at_, too]
        exact simulates.goTo (.done _) task
      · simp only [Openings.step, at_, too]
        exact simulates.goTo (.done _) task
      · simp only [Openings.step, at_, too]
        exact simulates
    | join channelId userId =>
      simp only [Openings.step, simulates.directory]
      split
      · exact simulates.change _
      · exact simulates
    | leave channelId userId =>
      simp only [Openings.step, simulates.directory]
      exact simulates.change _

theorem run (simulates : Simulates openings second) {inputs others : List DmInput}
    (same : List.Forall₂ DmInput.Same inputs others) :
    Simulates (inputs.foldl (Openings.step sha256) openings)
      (others.foldl (Openings.step sha256) second) := by
  induction same generalizing openings second with
  | nil => exact simulates
  | cons first _ ih => exact ih (simulates.step first)

omit [DecidableEq Digest] in
theorem agree (simulates : Simulates openings second) : openings.Agree second := by
  refine ⟨simulates.directory, fun task answer => ?_⟩
  rcases simulates.phase_cases task with ⟨at_, too⟩ | ⟨_, _, _, _, at_, too⟩ | ⟨_, _, _, at_, too⟩ | ⟨_, at_, too⟩
  · rw [at_, too]
  · simp only [at_, too, Option.some.injEq, reduceCtorEq]
  · simp only [at_, too, Option.some.injEq, reduceCtorEq]
  · rw [at_, too]

end Openings.Simulates

end Order

variable [DecidableEq Digest]

/-- The order in which requests list their members makes no difference. While the
opens are undisturbed, every member set has one channel, which every open of it
returns. -/
theorem opened_run (sha256 : List Char -> Digest) (start : Directory Digest)
    (agree : KeysAgree sha256 start) (inputs : List DmInput) :
    (∀ others, List.Forall₂ DmInput.Same inputs others ->
      ((dmMachine sha256 start).after inputs).Agree ((dmMachine sha256 start).after others)) ∧
    ((dmMachine sha256 start).EveryStep (Undisturbed sha256) inputs ->
      (dmMachine sha256 start).EveryState OneChannelPerSet inputs ∧
        (dmMachine sha256 start).EveryStep (AnswersOpen sha256) inputs) := by
  constructor
  · intro others same
    have simulates : Openings.Simulates (dmMachine sha256 start).initial (dmMachine sha256 start).initial :=
      ⟨rfl, fun _ => .none⟩
    exact (simulates.run same).agree
  · intro undisturbed
    have initially : Sound sha256 (dmMachine sha256 start).initial :=
      ⟨agree, fun _ _ _ impossible => nomatch impossible⟩
    have sound := (dmMachine sha256 start).guarded_everyState (Sound sha256) (Undisturbed sha256)
      initially (fun _ _ sound guarded => sound.step guarded) inputs undisturbed
    refine ⟨?_, ?_⟩
    · exact fun before rest split => oneChannelPerSet_of_agree (sound before rest split).agree
    · intro before input rest split
      exact answersOpen_of_sound (sound before (input :: rest) split)
        (undisturbed before input rest split)

def threeMembers : Directory (List Char) where
  db := {
    users := [ { id := 1, workspaceId := 10, email := "first", kind := .human, role := .member },
      { id := 2, workspaceId := 10, email := "second", kind := .human, role := .member },
      { id := 3, workspaceId := 10, email := "third", kind := .human, role := .member }]
    usersById := by decide
    channelsById := channels_nil
    membersByPair := members_nil
    messagesById := messages_nil
    messagesBySequence := sequences_nil
    messagesByClientMsgId := clients_nil }
  keysByMembers := by decide
  keysByChannel := by decide

def openedTwice : List DmInput :=
  [.begin 0 ⟨10, 1, [2, 1, 2]⟩, .create 0 20, .begin 1 ⟨10, 2, [1]⟩, .fetch 1]

theorem keysAgree_threeMembers : KeysAgree id threeMembers :=
  ⟨fun _ absent => (nomatch absent), fun _ absent => (nomatch absent), fun _ absent => (nomatch absent)⟩

theorem opened_run_openedTwice :
    (dmMachine id threeMembers).EveryStep (AnswersOpen id) openedTwice := by
  refine ((opened_run id threeMembers keysAgree_threeMembers openedTwice).2 ?_).2
  refine (Machine.everyStep_iff_stepsFrom _ _ _).mpr ?_
  refine ⟨fun _ absent => (nomatch absent), ⟨rfl, fun _ _ => rfl⟩, ?_, trivial, trivial⟩
  exact fun _ _ _ _ same => same

deriving instance DecidableEq for ChannelRow
deriving instance DecidableEq for OpenPhase

/-- Both members find no key, and both come to create the channel. -/
def openedAtOnce : List DmInput :=
  [.begin 0 ⟨10, 1, [2]⟩, .begin 1 ⟨10, 2, [1]⟩, .create 0 20]

/-- The first member leaves the channel and opens it again. -/
def openedAfterLeaving : List DmInput :=
  [.begin 0 ⟨10, 1, [2]⟩, .create 0 20, .leave 20 1, .begin 1 ⟨10, 1, [2]⟩]

theorem opens_fail_or_exclude :
    Not ((dmMachine id threeMembers).EveryStep (AnswersOpen id) (openedAtOnce ++ [.create 1 21])) ∧
      Not ((dmMachine id threeMembers).EveryStep (AnswersOpen id) (openedAfterLeaving ++ [.fetch 1])) := by
  constructor
  · intro every
    exact every openedAtOnce _ [] rfl 1 ⟨10, 2, [1]⟩ (.error .uniqueViolation)
      (by decide +kernel) (by decide +kernel)
  · intro every
    have serves := every openedAfterLeaving _ [] rfl 1 ⟨10, 1, [2]⟩
      (.ok (OpenRequest.newChannel ⟨10, 1, [2]⟩ 20, false)) (by decide +kernel) (by decide +kernel)
    have absent : (1 : UUID) ∉ ((Openings.step id ((dmMachine id threeMembers).after openedAfterLeaving)
        (.fetch 1)).directory.db.membersOf 20) := by decide +kernel
    exact absent ((serves.members 1).mpr (.inl rfl))

end Messenger
end BreadMind
