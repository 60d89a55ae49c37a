import BreadMind.Messenger.Database
import Mathlib.Data.List.Sort

namespace BreadMind
namespace Messenger

open Execution

/-!
# The message service

Each function is one transaction: it returns the changed database, or raises
and leaves everything as it was.  The identifiers drawn by `uuid4()` and the
readings of the clock are arguments.
-/

inductive MessengerError where
  | unauthorized (detail : String)
  | forbidden (detail : String)
  | notFound (entityKind entityId : String)
  | conflict (detail : String)
  | validationFailed (errors : List (String × String))
  /-- A query parameter out of its bounds, answered before the endpoint runs. -/
  | requestValidation (field : String)
  | uniqueViolation
  /-- An exception without a handler. -/
  | raised (kind : String)

/-- What an insertion draws: two identifiers, the time of the transaction and
the clock of the application. -/
structure Fresh where
  messageId : UUID
  outboxId : UUID
  now : Timestamp
  clock : Timestamp

/-- `COALESCE(MAX(ts_seq), 0) + 1` over the messages of the channel. -/
def nextTsSeq (db : Database) (channelId : UUID) : Nat :=
  ((db.messages.filter fun row => row.channelId = channelId).map fun row => row.tsSeq).max?.getD 0 + 1

/-- The number with leading zeros up to six digits. -/
def sixDigits (number : Nat) : String :=
  let digits := toString number
  String.ofList (List.replicate (6 - digits.length) '0') ++ digits

def formatSlackTs (createdAt : Timestamp) (tsSeq : Nat) : String :=
  toString (createdAt / 1000000) ++ "." ++ sixDigits tsSeq

/-! ## The outbox and the audit log -/

def enqueueOutbox (db : Database) (id workspaceId channelId : UUID) (eventType : String)
    (payload : Json) (clock now : Timestamp) : Database :=
  { db with
    outbox := db.outbox ++ [{
      id, workspaceId, channelId, eventType, payload
      expiresAt := clock + 60 * 1000000
      createdAt := now }] }

def writeAudit (db : Database) (workspaceId : UUID) (entityKind action : String) (entityId : UUID) :
    Database :=
  { db with audits := db.audits ++ [{ workspaceId, entityKind, action, entityId }] }

def touchChannel (db : Database) (channelId : UUID) (at_ : Timestamp) : Database :=
  { db with
    channels := db.channels.map fun row =>
      if row.id = channelId then { row with lastMessageAt := some at_ } else row
    channelsById := db.channelsById.update fun row => by split <;> rfl }

/-- `not text and not blocks`. -/
def isBlank (text : Option String) (blocks : Option (List Json)) : Bool :=
  text.getD "" == "" && (blocks.getD []).isEmpty

def createdPayload (row : MessageRow) : Json :=
  .obj [("message_id", .str row.id.text), ("channel_id", .str row.channelId.text),
    ("author_id", .str row.authorId.text), ("kind", .str row.kind.name),
    ("ts", .str (formatSlackTs row.createdAt row.tsSeq))]

def newMessage (db : Database) (workspaceId channelId authorId : UUID) (text : Option String)
    (blocks : Option (List Json)) (parentId clientMsgId : Option UUID) (kind : MessageKind)
    (fresh : Fresh) : StoredMessage where
  id := fresh.messageId
  workspaceId := workspaceId
  channelId := channelId
  authorId := authorId
  parentId := parentId
  kind := kind
  text := text
  blocks := blocks.getD []
  createdAt := fresh.now
  editedAt := none
  deletedAt := none
  tsSeq := nextTsSeq db channelId
  clientMsgId := clientMsgId

def referencesHold (db : Database) (row : MessageRow) : Bool :=
  (db.channel row.channelId).isSome && (db.user row.authorId).isSome &&
    match row.parentId with
    | none => true
    | some parent => (db.message parent).isSome

def postMessage (db : Database) (workspaceId channelId authorId : UUID) (text : Option String)
    (blocks : Option (List Json)) (parentId clientMsgId : Option UUID) (kind : MessageKind)
    (fresh : Fresh) : Except MessengerError (MessageRow × Database) :=
  if isBlank text blocks then
    .error (.validationFailed [("text|blocks", "at least one required")])
  else
    let row := newMessage db workspaceId channelId authorId text blocks parentId clientMsgId kind fresh
    match db.insertMessage row with
    | none => .error .uniqueViolation
    -- Foreign keys are checked after the unique indexes, at the end of the statement.
    | some inserted =>
      if referencesHold inserted row.toMessageRow then
        .ok (row.toMessageRow, enqueueOutbox (touchChannel inserted channelId row.createdAt)
          fresh.outboxId workspaceId channelId "message.created" (createdPayload row.toMessageRow)
          fresh.clock fresh.now)
      else .error (.raised "ForeignKeyViolationError")

def getMessage (db : Database) (channelId messageId : UUID) : Except MessengerError MessageRow :=
  match db.message messageId with
  | some row =>
    if row.channelId = channelId then .ok row.toMessageRow
    else .error (.notFound "message" messageId.text)
  | none => .error (.notFound "message" messageId.text)

def getMessageByClientMsgId (db : Database) (workspaceId clientMsgId : UUID) : Option MessageRow :=
  (lookup StoredMessage.clientKey db.messages (workspaceId, clientMsgId)).map StoredMessage.toMessageRow

def isListed (channelId : UUID) (before after : Option Timestamp) (row : StoredMessage) : Bool :=
  row.channelId = channelId ∧ row.deletedAt = none ∧ row.parentId = none ∧
    (∀ bound ∈ before, row.createdAt < bound) ∧
    (∀ bound ∈ after, bound < row.createdAt)

/-- One page, newest first, and whether there is more.  Rows of one time come
in the order of the scan. -/
def listMessages (db : Database) (channelId : UUID) (before after : Option Timestamp) (limit : Nat) :
    List MessageRow × Bool :=
  let rows := ((db.messages.filter (isListed channelId before after)).insertionSort
    fun row other => other.createdAt ≤ row.createdAt).take (limit + 1)
  ((rows.take limit).map StoredMessage.toMessageRow, limit < rows.length)

/-- `INSERT INTO message_edits` of the version which is replaced. -/
def noteEdit (db : Database) (prev : StoredMessage) (editedBy : UUID) (now : Timestamp) : Database :=
  { db with
    edits := db.edits ++ [{
      messageId := prev.id
      editedAt := now
      prevText := prev.text
      prevBlocks := prev.blocks
      editedBy }] }

def setContent (db : Database) (messageId : UUID) (text : Option String) (blocks : Option (List Json))
    (now : Timestamp) : Database :=
  if text.isNone && blocks.isNone then db
  else db.updateMessage messageId fun row => {
    text := if text.isSome then text else row.text
    blocks := blocks.getD row.blocks
    editedAt := some now
    deletedAt := row.deletedAt }

def editMessage (db : Database) (channelId messageId : UUID) (text : Option String)
    (blocks : Option (List Json)) (editedBy outboxId : UUID) (now clock : Timestamp) :
    Except MessengerError (MessageRow × Database) :=
  match db.message messageId with
  | none => .error (.notFound "message" messageId.text)
  | some prev =>
    if prev.channelId ≠ channelId then .error (.notFound "message" messageId.text)
    else if prev.deletedAt ≠ none then .error (.forbidden "cannot edit deleted message")
    else if db.edits.any (fun edit => edit.messageId = messageId ∧ edit.editedAt = now) then
      .error .uniqueViolation
    else
      let sent := enqueueOutbox
        (setContent (noteEdit db prev editedBy now) messageId text blocks now) outboxId
        prev.workspaceId channelId "message.updated"
        (.obj [("message_id", .str messageId.text), ("channel_id", .str channelId.text)]) clock now
      match getMessage sent channelId messageId with
      | .ok row => .ok (row, sent)
      | .error failure => .error failure

def deleteMessage (db : Database) (channelId messageId outboxId : UUID) (now clock : Timestamp) :
    Except MessengerError Database :=
  match db.message messageId with
  | none => .error (.notFound "message" messageId.text)
  | some row =>
    if row.channelId ≠ channelId then .error (.notFound "message" messageId.text)
    else if row.deletedAt ≠ none then .ok db
    else
      let deleted := db.updateMessage messageId fun row => {
        text := row.text
        blocks := row.blocks
        editedAt := row.editedAt
        deletedAt := some now }
      .ok (enqueueOutbox (writeAudit deleted row.workspaceId "message" "delete" messageId) outboxId
        row.workspaceId channelId "message.deleted"
        (.obj [("message_id", .str messageId.text), ("channel_id", .str channelId.text)]) clock now)

/-! ## What the transactions do -/

section Posting

variable {db after : Database} {workspaceId channelId authorId : UUID} {text : Option String}
variable {blocks : Option (List Json)} {parentId clientMsgId : Option UUID} {kind : MessageKind}
variable {fresh : Fresh} {row : MessageRow}

structure Posted (db : Database) (stored : StoredMessage) (outboxId : UUID) (after : Database) :
    Prop where
  messages : after.messages = db.messages ++ [stored]
  users : after.users = db.users
  members : after.members = db.members
  outbox : ∃ event : OutboxRow, after.outbox = db.outbox ++ [event] ∧
    event.id = outboxId ∧ event.channelId = stored.channelId ∧
    event.eventType = "message.created" ∧ event.payload = createdPayload stored.toMessageRow

theorem postMessage_ok
    (posted : postMessage db workspaceId channelId authorId text blocks parentId clientMsgId kind fresh =
      .ok (row, after)) : isBlank text blocks = false ∧
      row = (newMessage db workspaceId channelId authorId text blocks parentId clientMsgId kind
        fresh).toMessageRow ∧
      Posted db (newMessage db workspaceId channelId authorId text blocks parentId clientMsgId kind fresh)
        fresh.outboxId after := by
  unfold postMessage at posted
  split at posted
  · cases posted
  · rename_i present
    dsimp only at posted
    split at posted
    · cases posted
    · rename_i inserted isInserted
      split at posted
      · cases posted
        have appended := Database.appended_of_insertMessage isInserted
        refine ⟨Bool.eq_false_iff.mpr present, rfl, ?_⟩
        exact ⟨appended.messages, appended.users, appended.members, _,
          congrArg (· ++ [_]) appended.outbox, rfl, rfl, rfl, rfl⟩
      · cases posted

theorem postMessage_of_claimed {clientMsgId : UUID} {existing : MessageRow}
    (found : getMessageByClientMsgId db workspaceId clientMsgId = some existing)
    (present : isBlank text blocks = false) :
    postMessage db workspaceId channelId authorId text blocks parentId (some clientMsgId) kind fresh =
      .error .uniqueViolation := by
  unfold getMessageByClientMsgId at found
  rcases Option.map_eq_some_iff.mp found with ⟨stored, looked, _⟩
  have ⟨member, keyed⟩ := lookup_sound looked
  have blocked : db.insertMessage (newMessage db workspaceId channelId authorId text blocks parentId
      (some clientMsgId) kind fresh) = none :=
    Database.insertMessage_eq_none.mpr
      ⟨stored, member, .inr (.inr ⟨keyed ▸ Option.some_ne_none _, keyed⟩)⟩
  unfold postMessage
  rw [if_neg (Bool.eq_false_iff.mp present)]
  dsimp only
  rw [blocked]

end Posting

variable {db : Database} {channelId : UUID}

theorem lt_nextTsSeq {row : StoredMessage} (member : row ∈ db.messages)
    (here : row.channelId = channelId) : row.tsSeq < nextTsSeq db channelId := by
  have selected : row ∈ db.messages.filter fun row => row.channelId = channelId :=
    List.mem_filter.mpr ⟨member, decide_eq_true here⟩
  exact Nat.lt_succ_of_le (List.le_max?_getD_of_mem (List.mem_map_of_mem selected))

structure Insertable (db : Database) (channelId authorId : UUID) (parentId : Option UUID)
    (fresh : Fresh) : Prop where
  channel : (db.channel channelId).isSome = true
  author : (db.user authorId).isSome = true
  parent : ∀ parent ∈ parentId, (db.message parent).isSome = true
  unused : db.message fresh.messageId = none

theorem referencesHold_of_insertable {after : Database} {workspaceId authorId : UUID}
    {text : Option String} {blocks : Option (List Json)} {parentId clientMsgId : Option UUID}
    {kind : MessageKind} {fresh : Fresh}
    (insertable : Insertable db channelId authorId parentId fresh)
    (appended : Database.Appended db (newMessage db workspaceId channelId authorId text blocks parentId
      clientMsgId kind fresh) after) :
    referencesHold after (newMessage db workspaceId channelId authorId text blocks parentId clientMsgId
      kind fresh).toMessageRow = true := by
  unfold referencesHold Database.channel Database.user
  rw [appended.channels, appended.users]
  refine Bool.and_eq_true_iff.mpr ⟨Bool.and_eq_true_iff.mpr ⟨insertable.channel, insertable.author⟩, ?_⟩
  cases named : parentId with
  | none => rfl
  | some parent =>
    rcases Option.isSome_iff_exists.mp (insertable.parent parent named) with ⟨row, found⟩
    have ⟨member, here⟩ := Database.message_eq_some.mp found
    have still : after.message parent = some row := by
      refine Database.message_eq_some.mpr ⟨?_, here⟩
      rw [appended.messages]
      exact List.mem_append_left _ member
    change (after.message parent).isSome = true
    rw [still]
    rfl

theorem postMessage_of_insertable {authorId : UUID}
    {text : Option String} {blocks : Option (List Json)} {parentId : Option UUID} {fresh : Fresh}
    (workspaceId : UUID) (clientMsgId : Option UUID) (kind : MessageKind)
    (insertable : Insertable db channelId authorId parentId fresh)
    (present : isBlank text blocks = false) :
    (∃ posted, postMessage db workspaceId channelId authorId text blocks parentId clientMsgId
      kind fresh = .ok posted) ∨ (∃ taken, clientMsgId = some taken ∧
      ∃ row, getMessageByClientMsgId db workspaceId taken = some row) := by
  cases inserted : db.insertMessage (newMessage db workspaceId channelId authorId text blocks parentId
      clientMsgId kind fresh) with
  | some after =>
    refine Or.inl ?_
    have holds := referencesHold_of_insertable insertable (Database.appended_of_insertMessage inserted)
    unfold postMessage
    rw [if_neg (Bool.eq_false_iff.mp present)]
    dsimp only
    rw [inserted]
    dsimp only
    rw [holds, if_pos rfl]
    exact ⟨_, rfl⟩
  | none =>
    rcases Database.insertMessage_eq_none.mp inserted with ⟨other, member, clash | clash | clash⟩
    · have named : other.id = fresh.messageId := Option.some_inj.mp clash.2
      have found := Database.message_eq_some.mpr ⟨member, named⟩
      cases insertable.unused.symm.trans found
    · have ⟨here, same⟩ := Prod.mk_inj.mp (Option.some_inj.mp clash.2)
      exact absurd same (Nat.ne_of_lt (lt_nextTsSeq member here))
    · refine Or.inr ?_
      cases taken : clientMsgId with
      | none =>
        rw [taken] at clash
        exact absurd clash.2 clash.1
      | some clientMsgId =>
        rw [taken] at clash
        have found := (lookup_eq_some db.messagesByClientMsgId).mpr ⟨member, clash.2⟩
        exact ⟨clientMsgId, rfl, _, congrArg (Option.map StoredMessage.toMessageRow) found⟩

variable {row : MessageRow}

theorem getMessage_eq_ok {messageId : UUID} : getMessage db channelId messageId = .ok row <->
      ∃ stored, db.message messageId = some stored ∧ stored.channelId = channelId ∧
        stored.toMessageRow = row := by
  unfold getMessage
  cases db.message messageId with
  | none => simp only [reduceCtorEq, false_and, exists_false]
  | some stored =>
    simp only [Option.some_inj, exists_eq_left']
    split
    · rename_i here
      simp only [Except.ok.injEq, here, true_and]
    · rename_i elsewhere
      simp only [reduceCtorEq, elsewhere, false_and]

variable {before after : Option Timestamp} {limit : Nat}

theorem listed_of_shown (shown : row ∈ (listMessages db channelId before after limit).1) :
    ∃ stored ∈ db.messages, isListed channelId before after stored = true ∧
      stored.toMessageRow = row := by
  unfold listMessages at shown
  rcases List.mem_map.mp shown with ⟨stored, taken, same⟩
  have sorted := List.mem_of_mem_take (List.mem_of_mem_take taken)
  have ⟨member, selected⟩ := List.mem_filter.mp ((List.mem_insertionSort _).mp sorted)
  exact ⟨stored, member, selected, same⟩

theorem channelId_of_shown
    (shown : row ∈ (listMessages db channelId before after limit).1) : row.channelId = channelId := by
  rcases listed_of_shown shown with ⟨stored, _, listed, same⟩
  unfold isListed at listed
  exact same ▸ (of_decide_eq_true listed).1

theorem exists_shown (positive : 1 ≤ limit) {stored : StoredMessage} (member : stored ∈ db.messages)
    (listed : isListed channelId before after stored = true) :
    ∃ row, row ∈ (listMessages db channelId before after limit).1 := by
  unfold listMessages
  dsimp only
  have sorted : stored ∈ (db.messages.filter (isListed channelId before after)).insertionSort
      fun row other => other.createdAt ≤ row.createdAt :=
    (List.mem_insertionSort _).mpr (List.mem_filter.mpr ⟨member, listed⟩)
  rcases limit with _ | limit
  · cases positive
  · cases whole : (db.messages.filter (isListed channelId before after)).insertionSort
        fun row other => other.createdAt ≤ row.createdAt with
    | nil =>
      rw [whole] at sorted
      cases sorted
    | cons first rest => exact ⟨first.toMessageRow, List.mem_cons_self⟩

section Changing

variable {db after : Database} {channelId messageId : UUID}

def Changed (before after : List StoredMessage) (row : StoredMessage) : Prop :=
  (row ∈ after ∧ row ∉ before) ∨ (row ∈ before ∧ row ∉ after)

theorem not_changed_self (rows : List StoredMessage) (row : StoredMessage) : ¬ Changed rows rows row := by
  rintro (⟨inside, outside⟩ | ⟨inside, outside⟩) <;> exact outside inside

theorem changed_setContent {text : Option String} {blocks : Option (List Json)} {now : Timestamp}
    {prev row : StoredMessage} (found : db.message messageId = some prev)
    (changed : Changed db.messages (setContent db messageId text blocks now).messages row) :
    row.channelId = prev.channelId := by
  unfold setContent at changed
  split at changed
  · exact False.elim (not_changed_self _ row changed)
  · exact Database.changed_updateMessage found changed

theorem message_setContent {text : Option String} {blocks : Option (List Json)} {now : Timestamp}
    {prev : StoredMessage} (found : db.message messageId = some prev) :
    ∃ row, (setContent db messageId text blocks now).message messageId = some row ∧
      row.channelId = prev.channelId := by
  unfold setContent
  split
  · exact ⟨prev, found, rfl⟩
  · exact ⟨_, Database.message_updateMessage found, rfl⟩

section Editing

variable {text : Option String} {blocks : Option (List Json)} {editedBy outboxId : UUID}
variable {now clock : Timestamp}

theorem editMessage_ok {row : MessageRow}
    (edited : editMessage db channelId messageId text blocks editedBy outboxId now clock =
      .ok (row, after)) : (∃ prev, db.message messageId = some prev ∧ prev.channelId = channelId ∧
      prev.deletedAt = none ∧
      db.edits.any (fun edit => edit.messageId = messageId ∧ edit.editedAt = now) = false) ∧
    row.channelId = channelId ∧
    ∀ changed, Changed db.messages after.messages changed -> changed.channelId = channelId := by
  unfold editMessage at edited
  split at edited
  · cases edited
  · rename_i prev found
    split at edited
    · cases edited
    · rename_i here
      rw [ne_eq, not_not] at here
      split at edited
      · cases edited
      · rename_i present
        split at edited
        · cases edited
        · rename_i unedited
          refine ⟨⟨prev, found, here, not_not.mp present, Bool.eq_false_iff.mpr unedited⟩, ?_⟩
          dsimp only at edited
          split at edited
          · rename_i read isRead
            cases edited
            rcases getMessage_eq_ok.mp isRead with ⟨stored, _, there, same⟩
            refine ⟨same ▸ there, ?_⟩
            intro changed changes
            have noted : (noteEdit db prev editedBy now).message messageId = some prev := found
            exact (changed_setContent noted changes).trans here
          · cases edited

theorem exists_editMessage {prev : StoredMessage} (found : db.message messageId = some prev)
    (here : prev.channelId = channelId) (present : prev.deletedAt = none)
    (unedited : db.edits.any (fun edit => edit.messageId = messageId ∧ edit.editedAt = now) = false) :
    ∃ row after,
      editMessage db channelId messageId text blocks editedBy outboxId now clock = .ok (row, after) := by
  unfold editMessage
  rw [found]
  dsimp only
  rw [if_neg (not_not.mpr here), if_neg (not_not.mpr present), unedited, if_neg Bool.false_ne_true]
  have noted : (noteEdit db prev editedBy now).message messageId = some prev := found
  rcases message_setContent noted with ⟨row, isRow, same⟩
  have read : getMessage (enqueueOutbox
      (setContent (noteEdit db prev editedBy now) messageId text blocks now) outboxId
      prev.workspaceId channelId "message.updated"
      (.obj [("message_id", .str messageId.text), ("channel_id", .str channelId.text)]) clock now)
      channelId messageId = .ok row.toMessageRow :=
    getMessage_eq_ok.mpr ⟨row, isRow, same.trans here, rfl⟩
  rw [read]
  exact ⟨_, _, rfl⟩

theorem deleteMessage_ok (deleted : deleteMessage db channelId messageId outboxId now clock = .ok after) :
    ∃ prev, db.message messageId = some prev ∧ prev.channelId = channelId ∧
      (∀ changed, Changed db.messages after.messages changed -> changed.channelId = channelId) ∧
      (prev.deletedAt = none -> Changed db.messages after.messages prev) := by
  unfold deleteMessage at deleted
  split at deleted
  · cases deleted
  · rename_i prev found
    split at deleted
    · cases deleted
    · rename_i here
      rw [ne_eq, not_not] at here
      refine ⟨prev, found, here, ?_⟩
      split at deleted
      · rename_i gone
        cases deleted
        refine ⟨fun changed changes => False.elim (not_changed_self _ changed changes), ?_⟩
        intro present
        exact False.elim (gone present)
      · cases deleted
        refine ⟨fun changed changes => (Database.changed_updateMessage found changes).trans here, ?_⟩
        intro present
        refine .inr ⟨(Database.message_eq_some.mp found).1, ?_⟩
        intro kept
        rcases Database.mem_updateMessage.mp kept with ⟨old, _, same⟩
        split at same
        · rw [← same] at present
          cases present
        · rename_i other
          rw [same] at other
          exact other (Database.message_eq_some.mp found).2

theorem exists_deleteMessage {prev : StoredMessage} (found : db.message messageId = some prev)
    (here : prev.channelId = channelId) :
    ∃ after, deleteMessage db channelId messageId outboxId now clock = .ok after := by
  unfold deleteMessage
  rw [found]
  dsimp only
  rw [if_neg (not_not.mpr here)]
  split <;> exact ⟨_, rfl⟩

end Editing

end Changing

end Messenger
end BreadMind
