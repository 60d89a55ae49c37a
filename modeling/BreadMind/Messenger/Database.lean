import BreadMind.Base.Identifiers
import BreadMind.Execution.Indexes

namespace BreadMind
namespace Messenger

open Execution

/-!
# The messenger's tables

Rows carry the columns which the modelled services read or write.  The unique
indexes of the schema are part of the database type, so that every operation
which builds a database has to keep them.  Foreign keys are checked by the
operations which may run into them.

Time stamps count microseconds and are only compared and split into seconds.
-/

abbrev Timestamp := Nat

inductive Role where
  | owner
  | admin
  | member
  | guest
  | singleChannelGuest
  deriving DecidableEq

inductive UserKind where
  | human
  | bot
  | agent

inductive ChannelKind where
  | publicChannel
  | privateChannel
  | dm
  | mpdm
  deriving DecidableEq

inductive PostingPolicy where
  | all
  | admins
  | specificRoles
  deriving DecidableEq

inductive MemberRole where
  | member
  | admin
  deriving DecidableEq

inductive MessageKind where
  | text
  | agentAction
  | episodicRecall
  | toolCall
  | approvalRequest
  | system

def MessageKind.name : MessageKind -> String
  | .text => "text"
  | .agentAction => "agent_action"
  | .episodicRecall => "episodic_recall"
  | .toolCall => "tool_call"
  | .approvalRequest => "approval_request"
  | .system => "system"

structure UserRow where
  id : UUID
  workspaceId : UUID
  email : String
  kind : UserKind
  role : Role
  deactivatedAt : Option Timestamp := none

structure ChannelRow where
  id : UUID
  workspaceId : UUID
  kind : ChannelKind
  postingPolicy : PostingPolicy
  isArchived : Bool
  lastMessageAt : Option Timestamp := none

structure MemberRow where
  channelId : UUID
  userId : UUID
  role : MemberRole

structure MessageRow where
  id : UUID
  workspaceId : UUID
  channelId : UUID
  authorId : UUID
  parentId : Option UUID
  kind : MessageKind
  text : Option String
  blocks : List Json
  createdAt : Timestamp
  editedAt : Option Timestamp
  deletedAt : Option Timestamp
  tsSeq : Nat

structure StoredMessage extends MessageRow where
  clientMsgId : Option UUID

structure MessageEdit where
  messageId : UUID
  editedAt : Timestamp
  prevText : Option String
  prevBlocks : List Json
  editedBy : UUID

structure AuditEntry where
  workspaceId : UUID
  entityKind : String
  action : String
  entityId : UUID

structure OutboxRow where
  id : UUID
  workspaceId : UUID
  channelId : UUID
  eventType : String
  payload : Json
  expiresAt : Timestamp
  createdAt : Timestamp

def UserRow.key (row : UserRow) : Option UUID :=
  some row.id

def ChannelRow.key (row : ChannelRow) : Option UUID :=
  some row.id

def MemberRow.key (row : MemberRow) : Option (UUID × UUID) :=
  some (row.channelId, row.userId)

namespace StoredMessage

variable (row : StoredMessage)

def key : Option UUID :=
  some row.id

def sequenceKey : Option (UUID × Nat) :=
  some (row.channelId, row.tsSeq)

def clientKey : Option (UUID × UUID) :=
  row.clientMsgId.map fun clientMsgId => (row.workspaceId, clientMsgId)

def Collides (other : StoredMessage) : Prop :=
  Clashes key row other ∨ Clashes sequenceKey row other ∨ Clashes clientKey row other

instance (row other : StoredMessage) : Decidable (Collides row other) :=
  inferInstanceAs (Decidable (_ ∨ _ ∨ _))

end StoredMessage

structure Database where
  users : List UserRow := []
  channels : List ChannelRow := []
  members : List MemberRow := []
  messages : List StoredMessage := []
  edits : List MessageEdit := []
  audits : List AuditEntry := []
  outbox : List OutboxRow := []
  usersById : Unique UserRow.key users
  channelsById : Unique ChannelRow.key channels
  membersByPair : Unique MemberRow.key members
  messagesById : Unique StoredMessage.key messages
  messagesBySequence : Unique StoredMessage.sequenceKey messages
  messagesByClientMsgId : Unique StoredMessage.clientKey messages

theorem channels_nil : Unique ChannelRow.key [] := List.Pairwise.nil

theorem members_nil : Unique MemberRow.key [] := List.Pairwise.nil

theorem messages_nil : Unique StoredMessage.key [] := List.Pairwise.nil

theorem sequences_nil : Unique StoredMessage.sequenceKey [] := List.Pairwise.nil

theorem clients_nil : Unique StoredMessage.clientKey [] := List.Pairwise.nil

theorem members_insert {db : Database} {row : MemberRow}
    (free : ∀ other ∈ db.members, ¬ Clashes MemberRow.key other row) :
    Unique MemberRow.key (db.members ++ [row]) :=
  db.membersByPair.insert free

namespace Database

variable (db : Database)

def user (id : UUID) : Option UserRow :=
  lookup UserRow.key db.users id

def channel (id : UUID) : Option ChannelRow :=
  lookup ChannelRow.key db.channels id

def member (channelId userId : UUID) : Option MemberRow :=
  lookup MemberRow.key db.members (channelId, userId)

def message (id : UUID) : Option StoredMessage :=
  lookup StoredMessage.key db.messages id

def insertMessage (row : StoredMessage) : Option Database :=
  if free : ∀ other ∈ db.messages, ¬ StoredMessage.Collides other row then
    some { db with
      messages := db.messages ++ [row]
      messagesById := db.messagesById.insert fun other member clash =>
        free other member (.inl clash)
      messagesBySequence := db.messagesBySequence.insert fun other member clash =>
        free other member (.inr (.inl clash))
      messagesByClientMsgId := db.messagesByClientMsgId.insert fun other member clash =>
        free other member (.inr (.inr clash)) }
  else none

structure MessageUpdate where
  text : Option String
  blocks : List Json
  editedAt : Option Timestamp
  deletedAt : Option Timestamp

def MessageUpdate.apply (update : MessageUpdate) (row : StoredMessage) : StoredMessage :=
  { row with
    text := update.text
    blocks := update.blocks
    editedAt := update.editedAt
    deletedAt := update.deletedAt }

def updateMessage (id : UUID) (update : StoredMessage -> MessageUpdate) : Database :=
  let change := fun row : StoredMessage => if row.id = id then (update row).apply row else row
  have keeps : ∀ {Key : Type} {index : StoredMessage -> Option Key},
      (∀ row (changed : MessageUpdate), index (changed.apply row) = index row) ->
        ∀ row, index (change row) = index row := by
    intro Key index same row
    change index (if row.id = id then (update row).apply row else row) = index row
    split
    · exact same row (update row)
    · rfl
  { db with
    messages := db.messages.map change
    messagesById := db.messagesById.update (keeps fun _ _ => rfl)
    messagesBySequence := db.messagesBySequence.update (keeps fun _ _ => rfl)
    messagesByClientMsgId := db.messagesByClientMsgId.update (keeps fun _ _ => rfl) }

variable {db}

theorem user_eq_some {id : UUID} {row : UserRow} :
    db.user id = some row <-> row ∈ db.users ∧ row.id = id :=
  (lookup_eq_some db.usersById).trans (and_congr_right fun _ => Option.some_inj)

theorem channel_eq_some {id : UUID} {row : ChannelRow} :
    db.channel id = some row <-> row ∈ db.channels ∧ row.id = id :=
  (lookup_eq_some db.channelsById).trans (and_congr_right fun _ => Option.some_inj)

variable {row : StoredMessage}

theorem message_eq_some {id : UUID} :
    db.message id = some row <-> row ∈ db.messages ∧ row.id = id :=
  (lookup_eq_some db.messagesById).trans (and_congr_right fun _ => Option.some_inj)

theorem insertMessage_eq_none : db.insertMessage row = none <-> ∃ other ∈ db.messages,
      StoredMessage.Collides other row := by
  unfold insertMessage
  split
  · rename_i free
    refine iff_of_false (Option.some_ne_none _) ?_
    rintro ⟨other, member, clash⟩
    exact free other member clash
  · rename_i taken
    refine iff_of_true rfl ?_
    by_contra none_
    exact taken fun other member clash => none_ ⟨other, member, clash⟩

structure Appended (db : Database) (row : StoredMessage) (after : Database) : Prop where
  messages : after.messages = db.messages ++ [row]
  users : after.users = db.users
  channels : after.channels = db.channels
  members : after.members = db.members
  outbox : after.outbox = db.outbox

theorem appended_of_insertMessage {after : Database}
    (inserted : db.insertMessage row = some after) : Appended db row after := by
  unfold insertMessage at inserted
  split at inserted
  · cases inserted
    exact ⟨rfl, rfl, rfl, rfl, rfl⟩
  · cases inserted

variable {update : StoredMessage -> MessageUpdate}

theorem mem_updateMessage {id : UUID} : row ∈ (db.updateMessage id update).messages <->
      ∃ old ∈ db.messages, (if old.id = id then (update old).apply old else old) = row :=
  List.mem_map

theorem message_updateMessage {id : UUID} (found : db.message id = some row) :
    (db.updateMessage id update).message id = some ((update row).apply row) := by
  have ⟨member, named⟩ := message_eq_some.mp found
  refine message_eq_some.mpr ⟨mem_updateMessage.mpr ⟨row, member, if_pos named⟩, named⟩

theorem changed_updateMessage {id : UUID} {prev : StoredMessage} (found : db.message id = some prev)
    (changed : (row ∈ (db.updateMessage id update).messages ∧ row ∉ db.messages) ∨
      (row ∈ db.messages ∧ row ∉ (db.updateMessage id update).messages)) :
    row.channelId = prev.channelId := by
  have ⟨member, named⟩ := message_eq_some.mp found
  rcases changed with ⟨new, absent⟩ | ⟨old, gone⟩
  · rcases mem_updateMessage.mp new with ⟨before, stored, same⟩
    split at same
    · rename_i here
      have whole := db.messagesById.eq_of_mem stored member (congrArg some here) (congrArg some named)
      subst whole same
      rfl
    · subst same
      exact False.elim (absent stored)
  · by_cases here : row.id = id
    · rw [db.messagesById.eq_of_mem old member (congrArg some here) (congrArg some named)]
    · exact False.elim (gone (mem_updateMessage.mpr ⟨row, old, if_neg here⟩))

end Database
end Messenger
end BreadMind
