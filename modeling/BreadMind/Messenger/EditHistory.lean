import BreadMind.Messenger.Sequencing
import BreadMind.Execution.Chronicles

namespace BreadMind
namespace Messenger

open Execution
open Function (update update_of_ne update_self)

/-!
# The versions of a message

Edits and deletions of one message run side by side, each as one transaction.  An
edit reads the row without a lock, inserts what it has read into `message_edits`
under its own start time, and updates the columns it was given.  The update waits
for the row and then changes its latest version, whatever the edit has read.

What a transaction writes is seen by the others once it commits.
-/

inductive Revision where
  | edit (text : Option String) (blocks : Option (List Json)) (editedBy : UUID)
  | delete

/-- A call of `edit_message` or `delete_message`, whose transaction starts `now`. -/
structure RevisionCall where
  channelId : UUID
  revision : Revision
  outboxId : UUID
  now : Timestamp
  clock : Timestamp

namespace RevisionCall

variable (call : RevisionCall)

/-- The call updates `text` or `blocks`. -/
def setsContent : Bool :=
  match call.revision with
  | .edit text blocks _ => text.isSome || blocks.isSome
  | .delete => false

/-- The writes of the transaction, to the latest version of the row. -/
def write (db : Database) (messageId : UUID) (prev : StoredMessage) : Database :=
  match call.revision with
  | .edit text blocks editedBy =>
    enqueueOutbox (setContent (noteEdit db prev editedBy call.now) messageId text blocks call.now)
      call.outboxId prev.workspaceId call.channelId "message.updated"
      (.obj [("message_id", .str messageId.text), ("channel_id", .str call.channelId.text)])
      call.clock call.now
  | .delete =>
    let deleted := db.updateMessage messageId fun row => {
      text := row.text
      blocks := row.blocks
      editedAt := row.editedAt
      deletedAt := some call.now }
    enqueueOutbox (writeAudit deleted prev.workspaceId "message" "delete" messageId) call.outboxId
      prev.workspaceId call.channelId "message.deleted"
      (.obj [("message_id", .str messageId.text), ("channel_id", .str call.channelId.text)])
      call.clock call.now

/-- An edit which nothing runs beside. -/
theorem write_of_editMessage {db after : Database} {messageId editedBy : UUID} {text : Option String}
    {blocks : Option (List Json)} {row : MessageRow} {call : RevisionCall}
    (isEdit : call.revision = .edit text blocks editedBy)
    (edited : editMessage db call.channelId messageId text blocks editedBy call.outboxId call.now
      call.clock = .ok (row, after)) :
    ∃ prev, db.message messageId = some prev ∧ call.write db messageId prev = after := by
  unfold editMessage at edited
  unfold RevisionCall.write
  rw [isEdit]
  split at edited
  · cases edited
  · rename_i prev found
    refine ⟨prev, found, ?_⟩
    split at edited
    · cases edited
    · split at edited
      · cases edited
      · split at edited
        · cases edited
        · dsimp only at edited ⊢
          split at edited <;> cases edited
          rfl

/-- A deletion which nothing runs beside. -/
theorem write_of_deleteMessage {db after : Database} {messageId : UUID} {call : RevisionCall}
    (isDelete : call.revision = .delete)
    (deleted : deleteMessage db call.channelId messageId call.outboxId call.now call.clock = .ok after) :
    ∃ prev, db.message messageId = some prev ∧
      (prev.deletedAt = none -> call.write db messageId prev = after) := by
  unfold deleteMessage at deleted
  unfold RevisionCall.write
  rw [isDelete]
  split at deleted
  · cases deleted
  · rename_i prev found
    refine ⟨prev, found, fun present => ?_⟩
    split at deleted
    · cases deleted
    · rw [if_neg (not_not.mpr present)] at deleted
      cases deleted
      rfl

end RevisionCall

inductive RevisionPhase where
  | idle
  | begun (call : RevisionCall)
  | read (call : RevisionCall) (prev : StoredMessage)
  | noted (call : RevisionCall) (prev : StoredMessage)
  | updated (call : RevisionCall) (prev : StoredMessage)

namespace RevisionPhase

/-- The key of the row which the transaction has inserted into `message_edits`. -/
def noteTime : RevisionPhase -> Option Timestamp
  | noted call _ => some call.now
  | updated call _ =>
    match call.revision with
    | .edit _ _ _ => some call.now
    | .delete => none
  | _ => none

def prev : RevisionPhase -> Option StoredMessage
  | read _ prev => some prev
  | noted _ prev => some prev
  | updated _ prev => some prev
  | _ => none

end RevisionPhase

abbrev Content := Option String × List Json

def StoredMessage.content (row : StoredMessage) : Content :=
  (row.text, row.blocks)

def MessageEdit.content (edit : MessageEdit) : Content :=
  (edit.prevText, edit.prevBlocks)

structure Version where
  content : Content
  late : Bool

/-- The committed tables, the transactions, and which of them has locked the
message.  `versions` is a history. -/
structure RevisionState (count : Nat) where
  db : Database
  phase : Fin count -> RevisionPhase
  holder : Option (Fin count)
  versions : List Version

inductive RevisionInput (count : Nat) where
  | begin (transaction : Fin count) (call : RevisionCall)
  | read (transaction : Fin count)
  /-- `INSERT INTO message_edits`. -/
  | note (transaction : Fin count)
  | update (transaction : Fin count)
  | commit (transaction : Fin count)
  | abort (transaction : Fin count)

namespace RevisionState

variable {count : Nat} (state : RevisionState count) (transaction : Fin count)

def enter (phase : RevisionPhase) : RevisionState count :=
  { state with phase := update state.phase transaction phase }

def finish : RevisionState count :=
  { state.enter transaction .idle with
    holder := if state.holder = some transaction then none else state.holder }

/-- The update waits until nobody else has locked the row. -/
def lock (phase : RevisionPhase) : RevisionState count :=
  if state.holder = none then { state.enter transaction phase with holder := some transaction } else state

/-- The version of the message after an update of its content. -/
def newVersions (messageId : UUID) (call : RevisionCall) (after : Database) : List Version :=
  if call.setsContent then
    ((after.message messageId).map fun row =>
      { content := row.content, late := row.deletedAt.isSome : Version }).toList
  else []

def step (messageId : UUID) : RevisionInput count -> RevisionState count
  | .begin transaction call =>
    match state.phase transaction with
    | .idle => state.enter transaction (.begun call)
    | _ => state
  | .read transaction =>
    match state.phase transaction with
    | .begun call =>
      match state.db.message messageId with
      | none => state.finish transaction
      | some prev =>
        if prev.channelId ≠ call.channelId ∨ prev.deletedAt ≠ none then state.finish transaction
        else state.enter transaction (.read call prev)
    | _ => state
  | .note transaction =>
    match state.phase transaction with
    | .read call prev =>
      match call.revision with
      | .delete => state
      | .edit _ _ _ =>
        if state.db.edits.any fun edit => edit.messageId = messageId ∧ edit.editedAt = call.now then
          state.finish transaction
        -- A key that another transaction has inserted is waited for.
        else if ∃ other, (state.phase other).noteTime = some call.now then state
        else state.enter transaction (.noted call prev)
    | _ => state
  | .update transaction =>
    match state.phase transaction with
    | .read call prev =>
      match call.revision with
      | .delete => state.lock transaction (.updated call prev)
      | .edit _ _ _ => state
    | .noted call prev =>
      if call.setsContent then state.lock transaction (.updated call prev)
      else state.enter transaction (.updated call prev)
    | _ => state
  | .commit transaction =>
    match state.phase transaction with
    | .updated call prev =>
      let after := call.write state.db messageId prev
      { state.finish transaction with
        db := after, versions := state.versions ++ newVersions messageId call after }
    | _ => state
  | .abort transaction => state.finish transaction

end RevisionState

/-- The versions at the beginning are the message as it stands. -/
def revisionMachine (count : Nat) (db : Database) (messageId : UUID) :
    Machine (RevisionState count) (RevisionInput count) where
  initial := {
    db
    phase := fun _ => .idle
    holder := none
    versions := ((db.message messageId).map fun row =>
      { content := row.content, late := false : Version }).toList }
  step := fun state input => state.step messageId input

def editsOf (db : Database) (messageId : UUID) : List MessageEdit :=
  db.edits.filter fun edit => edit.messageId = messageId

/-- The noted versions in the order of their times, and then the current one. -/
def versionChain (db : Database) (messageId : UUID) : List Content :=
  (chronicle MessageEdit.editedAt (editsOf db messageId)).map MessageEdit.content ++
    ((db.message messageId).map StoredMessage.content).toList

/-- The chain has every version once and in order, and none came after the deletion. -/
structure HistoryComplete {count : Nat} (messageId : UUID) (state : RevisionState count) : Prop where
  whole : versionChain state.db messageId = state.versions.map Version.content
  timely : ∀ version ∈ state.versions, version.late = false

/-- An edit commits only if it sets something, the message is not deleted, it still
has the content that the edit has read, and so have the versions which edits that
began later have noted, if there are any. -/
def EditsInTurn {count : Nat} (messageId : UUID) (state : RevisionState count) :
    RevisionInput count -> Prop
  | .commit transaction =>
    match state.phase transaction with
    | .updated call prev =>
      match call.revision with
      | .delete => True
      | .edit _ _ _ => call.setsContent = true ∧
          ∀ row, state.db.message messageId = some row ->
            row.deletedAt = none ∧ prev.content = row.content ∧
              ∀ edit ∈ editsOf state.db messageId, call.now < edit.editedAt ->
                edit.content = row.content
    | _ => True
  | _ => True

section Writes

variable {db : Database} {messageId editedBy : UUID} {text : Option String}
variable {blocks : Option (List Json)} {prev row : StoredMessage} {call : RevisionCall}

variable (db prev) in
theorem editsOf_write_edit (isEdit : call.revision = .edit text blocks editedBy)
    (named : prev.id = messageId) :
    ∃ edit : MessageEdit, editsOf (call.write db messageId prev) messageId =
      editsOf db messageId ++ [edit] ∧ edit.editedAt = call.now ∧ edit.content = prev.content := by
  unfold RevisionCall.write setContent
  rw [isEdit]
  dsimp only
  refine ⟨⟨prev.id, call.now, prev.text, prev.blocks, editedBy⟩, ?_, rfl, rfl⟩
  have appended : editsOf (noteEdit db prev editedBy call.now) messageId =
      editsOf db messageId ++ [⟨prev.id, call.now, prev.text, prev.blocks, editedBy⟩] := by
    unfold editsOf noteEdit
    rw [List.filter_append]
    refine congrArg _ (List.filter_eq_self.mpr fun edit member => ?_)
    rw [List.mem_singleton.mp member]
    exact decide_eq_true named
  split <;> exact appended

variable (db messageId prev) in
theorem editsOf_write_delete (isDelete : call.revision = .delete) :
    editsOf (call.write db messageId prev) messageId = editsOf db messageId := by
  unfold RevisionCall.write
  rw [isDelete]
  rfl

variable (prev) in
theorem message_write_edit (isEdit : call.revision = .edit text blocks editedBy)
    (found : db.message messageId = some row) :
    ∃ after, (call.write db messageId prev).message messageId = some after ∧
      after.deletedAt = row.deletedAt ∧ (call.setsContent = false -> after = row) := by
  unfold RevisionCall.write RevisionCall.setsContent setContent
  rw [isEdit]
  dsimp only
  have noted : (noteEdit db prev editedBy call.now).message messageId = some row := found
  split
  case isTrue unset => exact ⟨row, noted, rfl, fun _ => rfl⟩
  case isFalse set =>
    refine ⟨_, Database.message_updateMessage noted, rfl, fun unset => absurd ?_ set⟩
    cases text with
    | none => cases blocks with
      | none => rfl
      | some _ => cases unset
    | some _ => cases unset

variable (prev) in
theorem message_write_delete (isDelete : call.revision = .delete) (found : db.message messageId = some row) :
    ∃ after, (call.write db messageId prev).message messageId = some after ∧
      after.content = row.content := by
  unfold RevisionCall.write
  rw [isDelete]
  exact ⟨_, Database.message_updateMessage found, rfl⟩

end Writes

/-! ## Keys of the noted versions -/

section Keys

variable {count : Nat} {messageId : UUID} {state : RevisionState count} {transaction : Fin count}

structure Keyed (messageId : UUID) (state : RevisionState count) : Prop where
  present : ∃ row, state.db.message messageId = some row
  distinct : DistinctStamps MessageEdit.editedAt (editsOf state.db messageId)
  unused : ∀ transaction time, (state.phase transaction).noteTime = some time ->
    ∀ edit ∈ editsOf state.db messageId, edit.editedAt ≠ time
  apart : ∀ transaction other time, (state.phase transaction).noteTime = some time ->
    (state.phase other).noteTime = some time -> transaction = other
  named : ∀ transaction prev, (state.phase transaction).prev = some prev -> prev.id = messageId

theorem Keyed.advance {next : RevisionPhase} (keyed : Keyed messageId state)
    (times : ∀ time, next.noteTime = some time -> (state.phase transaction).noteTime = some time)
    (named : ∀ prev, next.prev = some prev -> prev.id = messageId) (holder : Option (Fin count)) :
    Keyed messageId ⟨state.db, update state.phase transaction next, holder, state.versions⟩ := by
  have origin (other : Fin count) (time : Timestamp)
      (noted : (update state.phase transaction next other).noteTime = some time) :
      (state.phase other).noteTime = some time := by
    by_cases same : other = transaction
    · rw [same, update_self] at noted
      exact same ▸ times time noted
    · rwa [update_of_ne same] at noted
  refine ⟨keyed.present, keyed.distinct, fun other time noted => keyed.unused other time (origin _ _ noted),
    fun first second time firstNoted secondNoted =>
      keyed.apart first second time (origin _ _ firstNoted) (origin _ _ secondNoted), ?_⟩
  intro other prev isPrev
  dsimp only at isPrev
  by_cases same : other = transaction
  · rw [same, update_self] at isPrev
    exact named prev isPrev
  · rw [update_of_ne same] at isPrev
    exact keyed.named other prev isPrev

theorem Keyed.finish (keyed : Keyed messageId state) : Keyed messageId (state.finish transaction) :=
  keyed.advance (fun _ none_ => by cases none_) (fun _ none_ => by cases none_) _

theorem Keyed.note {call : RevisionCall} {prev : StoredMessage} (keyed : Keyed messageId state)
    (free : Not
      (state.db.edits.any (fun edit => edit.messageId = messageId ∧ edit.editedAt = call.now) = true))
    (alone : Not (∃ other, (state.phase other).noteTime = some call.now))
    (named : prev.id = messageId) : Keyed messageId (state.enter transaction (.noted call prev)) := by
  have fresh (edit : MessageEdit) (member : edit ∈ editsOf state.db messageId) :
      edit.editedAt ≠ call.now := by
    have ⟨stored, here⟩ := List.mem_filter.mp member
    intro same
    have taken := decide_eq_true (And.intro (of_decide_eq_true here) same)
    exact free (List.any_eq_true.mpr ⟨edit, stored, taken⟩)
  have phases (other : Fin count) (time : Timestamp)
      (noted : ((state.enter transaction (.noted call prev)).phase other).noteTime = some time) :
      (other = transaction ∧ time = call.now) ∨
        other ≠ transaction ∧ (state.phase other).noteTime = some time := by
    change (update state.phase transaction (.noted call prev) other).noteTime = some time at noted
    by_cases same : other = transaction
    · rw [same, update_self] at noted
      exact .inl ⟨same, (Option.some_inj.mp noted).symm⟩
    · rw [update_of_ne same] at noted
      exact .inr ⟨same, noted⟩
  refine ⟨keyed.present, keyed.distinct, ?_, ?_, ?_⟩
  · intro other time noted
    rcases phases other time noted with ⟨_, rfl⟩ | ⟨_, before⟩
    · exact fresh
    · exact keyed.unused other time before
  · intro first second time firstNoted secondNoted
    rcases phases first time firstNoted with ⟨firstHere, rfl⟩ | ⟨_, firstBefore⟩
    · rcases phases second _ secondNoted with ⟨secondHere, _⟩ | ⟨_, secondBefore⟩
      · exact firstHere.trans secondHere.symm
      · exact absurd ⟨second, secondBefore⟩ alone
    · rcases phases second time secondNoted with ⟨_, rfl⟩ | ⟨_, secondBefore⟩
      · exact absurd ⟨first, firstBefore⟩ alone
      · exact keyed.apart first second time firstBefore secondBefore
  · intro other before isPrev
    change (update state.phase transaction (.noted call prev) other).prev = some before at isPrev
    by_cases same : other = transaction
    · rw [same, update_self] at isPrev
      exact Option.some_inj.mp isPrev ▸ named
    · rw [update_of_ne same] at isPrev
      exact keyed.named other before isPrev

theorem Keyed.commit {call : RevisionCall} {prev : StoredMessage} {versions : List Version}
    (keyed : Keyed messageId state) (at_ : state.phase transaction = .updated call prev) :
    Keyed messageId { state.finish transaction with
      db := call.write state.db messageId prev, versions := versions } := by
  have finished : Keyed messageId (state.finish transaction) := keyed.finish
  have named : prev.id = messageId := keyed.named transaction prev (by rw [at_]; rfl)
  rcases keyed.present with ⟨row, found⟩
  have others (other : Fin count) (time : Timestamp)
      (noted : ((state.finish transaction).phase other).noteTime = some time) :
      other ≠ transaction ∧ (state.phase other).noteTime = some time := by
    change (update state.phase transaction .idle other).noteTime = some time at noted
    by_cases same : other = transaction
    · rw [same, update_self] at noted
      cases noted
    · exact ⟨same, (update_of_ne same _ state.phase) ▸ noted⟩
  cases revision : call.revision with
  | delete =>
    rcases message_write_delete prev revision found with ⟨after, isAfter, _⟩
    have edits := editsOf_write_delete state.db messageId prev revision
    refine ⟨⟨after, isAfter⟩, ?_, ?_, finished.apart, finished.named⟩
    · exact edits.symm ▸ keyed.distinct
    · exact fun other time noted edit member => finished.unused other time noted edit (edits ▸ member)
  | edit text blocks editedBy =>
    rcases message_write_edit prev revision found with ⟨after, isAfter, _⟩
    rcases editsOf_write_edit state.db prev revision named with ⟨noted, edits, time, _⟩
    have mine : (state.phase transaction).noteTime = some call.now := by
      rw [at_]
      unfold RevisionPhase.noteTime
      dsimp only
      rw [revision]
    refine ⟨⟨after, isAfter⟩, ?_, ?_, finished.apart, finished.named⟩
    · change DistinctStamps MessageEdit.editedAt (editsOf (call.write state.db messageId prev) messageId)
      rw [edits]
      refine List.pairwise_append.mpr ⟨keyed.distinct, List.pairwise_singleton _ _, ?_⟩
      intro edit member new isNew
      rw [List.mem_singleton.mp isNew, time]
      exact keyed.unused transaction call.now mine edit member
    · intro other moment isNoted edit member
      have ⟨apart, still⟩ := others other moment isNoted
      rcases List.mem_append.mp (edits ▸ member) with old | new
      · exact keyed.unused other moment still edit old
      · rw [List.mem_singleton.mp new, time]
        exact fun same => apart (keyed.apart other transaction call.now (same ▸ still) mine)

theorem Keyed.lock {next : RevisionPhase} (keyed : Keyed messageId state)
    (times : ∀ time, next.noteTime = some time -> (state.phase transaction).noteTime = some time)
    (named : ∀ prev, next.prev = some prev -> prev.id = messageId) :
    Keyed messageId (state.lock transaction next) := by
  unfold RevisionState.lock
  split
  · exact keyed.advance times named _
  · exact keyed

theorem Keyed.step (keyed : Keyed messageId state) (input : RevisionInput count) :
    Keyed messageId (state.step messageId input) := by
  cases input with
  | abort transaction => exact keyed.finish
  | begin transaction call =>
    unfold RevisionState.step
    dsimp only
    split
    case h_1 => exact keyed.advance (fun _ none_ => by cases none_) (fun _ none_ => by cases none_) _
    case h_2 => exact keyed
  | read transaction =>
    unfold RevisionState.step
    dsimp only
    split
    case h_2 => exact keyed
    case h_1 call at_ =>
      split
      case h_1 => exact keyed.finish
      case h_2 prev found =>
        split
        case isTrue => exact keyed.finish
        case isFalse =>
          refine keyed.advance (fun _ none_ => by cases none_) (fun other isPrev => ?_) _
          exact Option.some_inj.mp isPrev ▸ (Database.message_eq_some.mp found).2
  | note transaction =>
    unfold RevisionState.step
    dsimp only
    split
    case h_2 => exact keyed
    case h_1 call prev at_ =>
      have named : prev.id = messageId := keyed.named transaction prev (by rw [at_]; rfl)
      split
      case h_1 => exact keyed
      case h_2 =>
        split
        case isTrue => exact keyed.finish
        case isFalse free =>
          split
          case isTrue => exact keyed
          case isFalse alone => exact keyed.note free alone named
  | update transaction =>
    unfold RevisionState.step
    dsimp only
    split
    case h_1 call prev at_ =>
      split
      case h_1 isDelete =>
        refine keyed.lock (fun time noted => ?_) (fun other isPrev => keyed.named transaction other ?_)
        · unfold RevisionPhase.noteTime at noted
          dsimp only at noted
          rw [isDelete] at noted
          cases noted
        · rw [at_]
          exact isPrev
      case h_2 => exact keyed
    case h_2 call prev at_ =>
      have times (time : Timestamp) (noted : (RevisionPhase.updated call prev).noteTime = some time) :
          (state.phase transaction).noteTime = some time := by
        rw [at_]
        unfold RevisionPhase.noteTime at noted
        dsimp only at noted
        split at noted
        · exact noted
        · cases noted
      have named (other : StoredMessage) (isPrev : (RevisionPhase.updated call prev).prev = some other) :
          other.id = messageId := keyed.named transaction other (by rw [at_]; exact isPrev)
      split
      case isTrue => exact keyed.lock times named
      case isFalse => exact keyed.advance times named _
    case h_3 => exact keyed
  | commit transaction =>
    unfold RevisionState.step
    dsimp only
    split
    case h_1 call prev at_ => exact keyed.commit at_
    case h_2 => exact keyed

end Keys

section Condition

variable {count : Nat} {messageId : UUID} {state : RevisionState count} {transaction : Fin count}

theorem unchanged_step {input : RevisionInput count}
    (other : ∀ transaction, input ≠ .commit transaction) :
    (state.step messageId input).db = state.db ∧
      (state.step messageId input).versions = state.versions := by
  have locked (transaction : Fin count) (phase : RevisionPhase) :
      (state.lock transaction phase).db = state.db ∧
        (state.lock transaction phase).versions = state.versions := by
    unfold RevisionState.lock
    split <;> exact ⟨rfl, rfl⟩
  cases input with
  | commit transaction => exact absurd rfl (other transaction)
  | abort => exact ⟨rfl, rfl⟩
  | begin =>
    unfold RevisionState.step
    dsimp only
    split <;> exact ⟨rfl, rfl⟩
  | read =>
    unfold RevisionState.step
    dsimp only
    split
    · split
      · exact ⟨rfl, rfl⟩
      · split <;> exact ⟨rfl, rfl⟩
    · exact ⟨rfl, rfl⟩
  | note =>
    unfold RevisionState.step
    dsimp only
    split
    · split
      · exact ⟨rfl, rfl⟩
      · split
        · exact ⟨rfl, rfl⟩
        · split <;> exact ⟨rfl, rfl⟩
    · exact ⟨rfl, rfl⟩
  | update =>
    unfold RevisionState.step
    dsimp only
    split
    · split
      · exact locked _ _
      · exact ⟨rfl, rfl⟩
    · split
      · exact locked _ _
      · exact ⟨rfl, rfl⟩
    · exact ⟨rfl, rfl⟩

theorem historyComplete_congr {after : RevisionState count} (db : after.db = state.db)
    (versions : after.versions = state.versions) :
    HistoryComplete messageId after <-> HistoryComplete messageId state := by
  constructor
  · intro complete
    exact ⟨db ▸ versions ▸ complete.whole, versions ▸ complete.timely⟩
  · intro complete
    exact ⟨db.symm ▸ versions.symm ▸ complete.whole, versions.symm ▸ complete.timely⟩

theorem versionChain_eq {db : Database} {row : StoredMessage} (found : db.message messageId = some row) :
    versionChain db messageId =
      (chronicle MessageEdit.editedAt (editsOf db messageId)).map MessageEdit.content ++ [row.content] := by
  unfold versionChain
  rw [found]
  rfl

theorem complete_delete {call : RevisionCall} {prev row : StoredMessage}
    (found : state.db.message messageId = some row) (isDelete : call.revision = .delete)
    (complete : HistoryComplete messageId state) :
    HistoryComplete messageId { state.finish transaction with
      db := call.write state.db messageId prev
      versions := state.versions ++ RevisionState.newVersions messageId call
        (call.write state.db messageId prev) } := by
  rcases message_write_delete prev isDelete found with ⟨after, isAfter, same⟩
  have none_ : RevisionState.newVersions messageId call (call.write state.db messageId prev) = [] := by
    unfold RevisionState.newVersions RevisionCall.setsContent
    rw [isDelete]
    rfl
  have whole := complete.whole
  rw [versionChain_eq found] at whole
  rw [none_, List.append_nil]
  refine ⟨?_, complete.timely⟩
  dsimp only
  rw [versionChain_eq isAfter, editsOf_write_delete state.db messageId prev isDelete, same]
  exact whole

theorem complete_edit {call : RevisionCall} {prev row : StoredMessage} {text : Option String}
    {blocks : Option (List Json)} {editedBy : UUID}
    (distinct : DistinctStamps MessageEdit.editedAt (editsOf state.db messageId))
    (unused : ∀ edit ∈ editsOf state.db messageId, edit.editedAt ≠ call.now)
    (named : prev.id = messageId) (found : state.db.message messageId = some row)
    (isEdit : call.revision = .edit text blocks editedBy) (complete : HistoryComplete messageId state) :
    HistoryComplete messageId { state.finish transaction with
      db := call.write state.db messageId prev
      versions := state.versions ++ RevisionState.newVersions messageId call
        (call.write state.db messageId prev) } <->
    call.setsContent = true ∧ ∀ row, state.db.message messageId = some row ->
      row.deletedAt = none ∧ prev.content = row.content ∧
        ∀ edit ∈ editsOf state.db messageId, call.now < edit.editedAt ->
          edit.content = row.content := by
  rcases message_write_edit prev isEdit found with ⟨after, isAfter, deleted, _⟩
  rcases editsOf_write_edit state.db prev isEdit named with ⟨noted, edits, time, content⟩
  have whole := complete.whole
  rw [versionChain_eq found] at whole
  have chain := versionChain_eq isAfter
  rw [edits] at chain
  cases sets : call.setsContent with
  | false =>
    have none_ : RevisionState.newVersions messageId call (call.write state.db messageId prev) = [] := by
      unfold RevisionState.newVersions
      rw [sets, if_neg Bool.false_ne_true]
    rw [none_, List.append_nil]
    refine iff_of_false (fun after => ?_) fun turn => Bool.false_ne_true turn.1
    have longer := after.whole
    dsimp only at longer
    rw [chain, ← whole] at longer
    have lengths := congrArg List.length longer
    unfold chronicle at lengths
    simp only [List.length_append, List.length_map, List.length_insertionSort,
      List.length_singleton] at lengths
    omega
  | true =>
    have new : RevisionState.newVersions messageId call (call.write state.db messageId prev) =
        [{ content := after.content, late := after.deletedAt.isSome }] := by
      unfold RevisionState.newVersions
      rw [sets, if_pos rfl, isAfter]
      rfl
    have apart (edit : MessageEdit) (member : edit ∈ editsOf state.db messageId) :
        edit.editedAt ≠ noted.editedAt := time ▸ unused edit member
    have grows : (chronicle MessageEdit.editedAt (editsOf state.db messageId ++ [noted])).map
          MessageEdit.content = state.versions.map Version.content <->
        noted.content = row.content ∧ ∀ edit ∈ editsOf state.db messageId,
          noted.editedAt < edit.editedAt -> edit.content = row.content := by
      rw [← whole]
      exact chronicle_grows_iff distinct apart
    rw [content, time] at grows
    rw [new]
    constructor
    · intro complete
      have longer := complete.whole
      dsimp only at longer
      rw [chain, List.map_append, List.map_singleton] at longer
      have ⟨read, later⟩ := grows.mp (List.append_cancel_right longer)
      have timely := complete.timely _ (List.mem_append_right _ (List.mem_singleton_self _))
      refine ⟨rfl, fun current isCurrent => ?_⟩
      cases found.symm.trans isCurrent
      exact ⟨deleted ▸ Option.isNone_iff_eq_none.mp (Option.isSome_eq_false_iff.mp timely), read, later⟩
    · rintro ⟨_, turn⟩
      have ⟨present, read, later⟩ := turn row found
      refine ⟨?_, fun version member => ?_⟩
      · dsimp only
        rw [chain, List.map_append, List.map_singleton, grows.mpr ⟨read, later⟩]
      · rcases List.mem_append.mp member with old | isNew
        · exact complete.timely version old
        · rw [List.mem_singleton.mp isNew]
          dsimp only
          rw [deleted, present]
          rfl

theorem historyComplete_step (keyed : Keyed messageId state) (complete : HistoryComplete messageId state)
    (input : RevisionInput count) :
    HistoryComplete messageId (state.step messageId input) <-> EditsInTurn messageId state input := by
  cases input with
  | commit transaction =>
    unfold RevisionState.step EditsInTurn
    dsimp only
    cases at_ : state.phase transaction with
    | updated call prev =>
      have named : prev.id = messageId := keyed.named transaction prev (by rw [at_]; rfl)
      rcases keyed.present with ⟨row, found⟩
      have whole := complete.whole
      rw [versionChain_eq found] at whole
      dsimp only
      cases revision : call.revision with
      | delete => exact iff_of_true (complete_delete found revision complete) trivial
      | edit text blocks editedBy =>
        have mine : (state.phase transaction).noteTime = some call.now := by
          rw [at_]
          unfold RevisionPhase.noteTime
          dsimp only
          rw [revision]
        exact complete_edit keyed.distinct (keyed.unused transaction call.now mine) named found revision
          complete
    | _ => exact iff_of_true complete trivial
  | _ =>
    refine iff_of_true ((historyComplete_congr (unchanged_step ?_).1
      (unchanged_step ?_).2).mpr complete) trivial
    · exact fun _ same => by cases same
    · exact fun _ same => by cases same

/-- In every run of edits and deletions of a message that was never edited before,
the chain is complete throughout exactly if the edits commit in turn. -/
theorem historyComplete_exactly {db : Database} {row : StoredMessage}
    (found : db.message messageId = some row)
    (unedited : editsOf db messageId = []) (inputs : List (RevisionInput count)) :
    (revisionMachine count db messageId).EveryState (HistoryComplete messageId) inputs <->
      (revisionMachine count db messageId).EveryStep (EditsInTurn messageId) inputs := by
  have versions : (revisionMachine count db messageId).initial.versions =
      [{ content := row.content, late := false }] := by
    unfold revisionMachine
    dsimp only
    rw [found]
    rfl
  have initially : HistoryComplete messageId (revisionMachine count db messageId).initial := by
    refine ⟨?_, fun version member => ?_⟩
    · change versionChain db messageId = _
      rw [versions, versionChain_eq found, unedited]
      rfl
    · rw [versions] at member
      rw [List.mem_singleton.mp member]
  have keyed : Keyed messageId (revisionMachine count db messageId).initial := by
    refine ⟨⟨row, found⟩, ?_, (fun _ _ none_ => by cases none_), (fun _ _ _ none_ => by cases none_),
      (fun _ _ none_ => by cases none_)⟩
    change DistinctStamps MessageEdit.editedAt (editsOf db messageId)
    rw [unedited]
    exact List.Pairwise.nil
  exact (revisionMachine count db messageId).everyState_iff_everyStep (Keyed messageId) initially keyed
    (fun _ input keyed => keyed.step input)
    (fun _ input keyed complete => historyComplete_step keyed complete input) inputs

end Condition

def oneRemark : Database where
  users := lobby.users
  channels := lobby.channels
  messages := [{
    id := 9, workspaceId := 10, channelId := 5, authorId := 1, parentId := none, kind := .text
    text := some "first", blocks := [], createdAt := 100, editedAt := none, deletedAt := none
    tsSeq := 1, clientMsgId := none }]
  usersById := lobby.usersById
  channelsById := lobby.channelsById
  membersByPair := members_nil
  messagesById := by decide
  messagesBySequence := by decide
  messagesByClientMsgId := by decide

def rewording (text : String) (now : Timestamp) : RevisionCall where
  channelId := 5
  revision := .edit (some text) none 1
  outboxId := BitVec.ofNat 128 now
  now := now
  clock := now

def wholeEdit {count : Nat} (transaction : Fin count) : List (RevisionInput count) :=
  [.read transaction, .note transaction, .update transaction, .commit transaction]

theorem historyComplete_oneAfterAnother : (revisionMachine 2 oneRemark 9).EveryState (HistoryComplete 9)
    (.begin 0 (rewording "second" 200) :: wholeEdit 0 ++
      .begin 1 (rewording "third" 300) :: wholeEdit 1) := by
  refine (historyComplete_exactly rfl rfl _).mpr ((Machine.everyStep_iff_stepsFrom _ _ _).mpr ?_)
  refine ⟨trivial, trivial, trivial, trivial, ⟨rfl, ?_⟩, trivial, trivial, trivial, trivial,
    ⟨rfl, ?_⟩, trivial⟩
  · rintro row ⟨⟩
    exact ⟨rfl, rfl, fun edit none_ => by cases none_⟩
  · rintro row ⟨⟩
    refine ⟨rfl, rfl, fun edit member later => ?_⟩
    cases List.mem_singleton.mp member
    exact absurd later (by decide)

/-- Both edits read the first version before either commits. -/
def overlappingEdits : List (RevisionInput 2) :=
  [.begin 0 (rewording "second" 200), .begin 1 (rewording "third" 300), .read 0, .read 1, .note 0, .note 1,
    .update 0, .commit 0, .update 1, .commit 1]

/-- The chain has the first version twice, and the second one nowhere. -/
theorem historyComplete_lost :
    Not ((revisionMachine 2 oneRemark 9).EveryState (HistoryComplete 9) overlappingEdits) := by
  intro every
  have whole := (Machine.EveryState.last _ every).whole
  have chain : versionChain ((revisionMachine 2 oneRemark 9).after overlappingEdits).db 9 =
      [(some "first", []), (some "first", []), (some "third", [])] := rfl
  have versions : ((revisionMachine 2 oneRemark 9).after overlappingEdits).versions.map Version.content =
      [(some "first", []), (some "second", []), (some "third", [])] := rfl
  rw [chain, versions] at whole
  have texts := congrArg (fun contents : List Content => contents.map Prod.fst) whole
  exact absurd texts (by decide)

end Messenger
end BreadMind
