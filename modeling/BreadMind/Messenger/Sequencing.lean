import BreadMind.Messenger.MessageService
import BreadMind.Execution.Machine
import BreadMind.Text.Integers

namespace BreadMind
namespace Messenger

open Execution Text

/-!
# Numbering the messages of a channel

Posts to one channel run as transactions side by side.  The time of a message is
the time at which its transaction began; its number is one more than the greatest
number there is, read under the lock of the channel's row.  A transaction sees its
own writes, and what others have committed when a statement of it starts.

The time stamp of a message joins the second of the one with the other.
-/

structure Posting where
  workspaceId : UUID
  authorId : UUID
  text : Option String
  blocks : Option (List Json)
  parentId : Option UUID
  clientMsgId : Option UUID
  kind : MessageKind
  fresh : Fresh

namespace Posting

variable (posting : Posting)

def row (channelId : UUID) (tsSeq : Nat) : StoredMessage where
  id := posting.fresh.messageId
  workspaceId := posting.workspaceId
  channelId := channelId
  authorId := posting.authorId
  parentId := posting.parentId
  kind := posting.kind
  text := posting.text
  blocks := posting.blocks.getD []
  createdAt := posting.fresh.now
  editedAt := none
  deletedAt := none
  tsSeq := tsSeq
  clientMsgId := posting.clientMsgId

def write (db : Database) (channelId : UUID) (tsSeq : Nat) : Option Database :=
  match db.insertMessage (posting.row channelId tsSeq) with
  | none => none
  | some inserted =>
    if referencesHold inserted (posting.row channelId tsSeq).toMessageRow then
      some (enqueueOutbox (touchChannel inserted channelId posting.fresh.now) posting.fresh.outboxId
        posting.workspaceId channelId "message.created"
        (createdPayload (posting.row channelId tsSeq).toMessageRow) posting.fresh.clock posting.fresh.now)
    else none

/-- A transaction which nothing runs beside is the call as a whole. -/
theorem write_nextTsSeq {db after : Database} {channelId : UUID}
    (present : isBlank posting.text posting.blocks = false) :
    posting.write db channelId (nextTsSeq db channelId) = some after <->
      postMessage db posting.workspaceId channelId posting.authorId posting.text posting.blocks
        posting.parentId posting.clientMsgId posting.kind posting.fresh =
      .ok ((posting.row channelId (nextTsSeq db channelId)).toMessageRow, after) := by
  unfold postMessage write
  rw [if_neg (Bool.eq_false_iff.mp present)]
  have same : newMessage db posting.workspaceId channelId posting.authorId posting.text posting.blocks
      posting.parentId posting.clientMsgId posting.kind posting.fresh =
    posting.row channelId (nextTsSeq db channelId) := rfl
  dsimp only
  rw [same]
  cases db.insertMessage (posting.row channelId (nextTsSeq db channelId)) with
  | none => simp only [reduceCtorEq]
  | some inserted =>
    dsimp only
    split
    · rw [Except.ok.injEq, Prod.mk.injEq, Option.some_inj]
      exact (and_iff_right rfl).symm
    · simp only [reduceCtorEq]

theorem written {db after : Database} {channelId : UUID} {tsSeq : Nat}
    (isWritten : posting.write db channelId tsSeq = some after) :
    after.messages = db.messages ++ [posting.row channelId tsSeq] ∧
      (db.channel channelId).isSome = true := by
  unfold write at isWritten
  split at isWritten
  · cases isWritten
  · rename_i inserted isInserted
    have appended := Database.appended_of_insertMessage isInserted
    split at isWritten
    · rename_i references
      cases isWritten
      unfold referencesHold at references
      have known := (Bool.and_eq_true_iff.mp (Bool.and_eq_true_iff.mp references).1).1
      unfold Database.channel at known
      rw [appended.channels] at known
      exact ⟨appended.messages, known⟩
    · cases isWritten

end Posting

inductive PostingPhase where
  | idle
  | begun (posting : Posting)
  | locked (posting : Posting)
  | numbered (posting : Posting) (tsSeq : Nat)
  | written (posting : Posting) (tables : Database)

/-- The committed tables, the transactions, and which of them holds the channel's row. -/
structure PostingState where
  db : Database
  phase : Nat -> PostingPhase
  holder : Option Nat

inductive PostingInput where
  | begin (transaction : Nat) (posting : Posting)
  | lock (transaction : Nat)
  | number (transaction : Nat)
  | write (transaction : Nat)
  | commit (transaction : Nat)
  /-- An exception, or the connection is lost. -/
  | abort (transaction : Nat)

namespace PostingState

variable (state : PostingState) (transaction : Nat)

def enter (phase : PostingPhase) : PostingState :=
  { state with phase := Function.update state.phase transaction phase }

def finish (db : Database) : PostingState where
  db := db
  phase := Function.update state.phase transaction .idle
  holder := if state.holder = some transaction then none else state.holder

def step (channelId : UUID) : PostingInput -> PostingState
  | .begin transaction posting =>
    match state.phase transaction with
    | .idle =>
      if isBlank posting.text posting.blocks then state
      else state.enter transaction (.begun posting)
    | _ => state
  | .lock transaction =>
    match state.phase transaction with
    | .begun posting =>
      -- A row that is not there is not locked.
      if state.db.channel channelId = none then state.enter transaction (.locked posting)
      else if state.holder = none then
        { state.enter transaction (.locked posting) with holder := some transaction }
      else state
    | _ => state
  | .number transaction =>
    match state.phase transaction with
    | .locked posting => state.enter transaction (.numbered posting (nextTsSeq state.db channelId))
    | _ => state
  | .write transaction =>
    match state.phase transaction with
    | .numbered posting tsSeq =>
      match posting.write state.db channelId tsSeq with
      | some tables => state.enter transaction (.written posting tables)
      | none => state.finish transaction state.db
    | _ => state
  | .commit transaction =>
    match state.phase transaction with
    | .written _ tables => state.finish transaction tables
    | _ => state
  | .abort transaction => state.finish transaction state.db

end PostingState

def postingMachine (db : Database) (channelId : UUID) : Machine PostingState PostingInput where
  initial := { db, phase := fun _ => .idle, holder := none }
  step := fun state input => state.step channelId input

/-- `parse_slack_ts`, or `none` for a `ValueError`. -/
def parseSlackTs (ts : String) : Option (Int × Int) :=
  match ts.toList.splitOn '.' with
  | [epoch, seq] => do
    let seconds ← readInt epoch
    let tsSeq ← readInt seq
    some (seconds, tsSeq)
  | _ => none

/-- The order of the time stamps: by the second, then by the number. -/
def Precedes (first second : Int × Int) : Prop :=
  first.1 < second.1 ∨ first.1 = second.1 ∧ first.2 < second.2

theorem toList_sixDigits (number : Nat) : ∃ zeros,
    (sixDigits number).toList = List.replicate zeros '0' ++ Nat.toDigits 10 number := by
  unfold sixDigits
  refine ⟨6 - (toString number).length, ?_⟩
  rw [String.toList_append, String.toList_ofList]
  exact congrArg _ Nat.toList_repr

theorem parse_formatSlackTs (createdAt : Timestamp) (tsSeq : Nat) :
    parseSlackTs (formatSlackTs createdAt tsSeq) =
      some (((createdAt / 1000000 : Nat) : Int), (tsSeq : Int)) := by
  rcases toList_sixDigits tsSeq with ⟨zeros, padded⟩
  have letters : (formatSlackTs createdAt tsSeq).toList =
      (List.replicate 0 '0' ++ Nat.toDigits 10 (createdAt / 1000000)) ++
        '.' :: (List.replicate zeros '0' ++ Nat.toDigits 10 tsSeq) := by
    unfold formatSlackTs
    rw [String.toList_append, String.toList_append, padded, List.append_assoc]
    exact congrArg (· ++ _) Nat.toList_repr
  unfold parseSlackTs
  rw [letters, (splitOn_digits _ (fun _ => isDigit_of_padded) rfl).2,
    (splitOn_digits [] (fun _ => isDigit_of_padded) rfl).1]
  dsimp only
  rw [readInt_padded, readInt_padded]
  rfl

/-! ## One transaction beyond the lock -/

def channelRows (db : Database) (channelId : UUID) : List StoredMessage :=
  db.messages.filter fun row => row.channelId = channelId

def Counts (db : Database) (channelId : UUID) : Prop :=
  (channelRows db channelId).map (fun row => row.tsSeq) =
    List.range' 1 (channelRows db channelId).length

variable {db : Database} {channelId : UUID}

theorem nextTsSeq_of_counts (counts : Counts db channelId) :
    nextTsSeq db channelId = (channelRows db channelId).length + 1 := by
  change ((channelRows db channelId).map fun row => row.tsSeq).max?.getD 0 + 1 = _
  rw [counts]
  cases (channelRows db channelId).length with
  | zero => rfl
  | succ count =>
    have greatest : (List.range' 1 (count + 1)).max? = some (count + 1) := by
      refine List.max?_eq_some_iff.mpr ⟨List.mem_range'_1.mpr ⟨Nat.succ_pos count, ?_⟩, ?_⟩
      · exact Nat.lt_add_of_pos_left Nat.one_pos
      · intro other member
        have := (List.mem_range'_1.mp member).2
        omega
    rw [greatest]
    rfl

theorem channelRows_written {posting : Posting} {after : Database} {tsSeq : Nat}
    (isWritten : posting.write db channelId tsSeq = some after) :
    channelRows after channelId = channelRows db channelId ++ [posting.row channelId tsSeq] := by
  unfold channelRows
  rw [(posting.written isWritten).1, List.filter_append]
  refine congrArg _ (List.filter_eq_self.mpr fun row member => ?_)
  rw [List.mem_singleton.mp member]
  exact decide_eq_true rfl

theorem counts_written {posting : Posting} {after : Database} (counts : Counts db channelId)
    (isWritten : posting.write db channelId (nextTsSeq db channelId) = some after) :
    Counts after channelId := by
  unfold Counts at counts ⊢
  rw [channelRows_written isWritten, List.map_append, counts, List.length_append, List.length_singleton,
    List.range'_1_concat, nextTsSeq_of_counts counts, Nat.add_comm 1]
  rfl

/-- What the transaction knows while it is beyond the lock. -/
def Orderly (channelId : UUID) (db : Database) (holder : Option Nat) (transaction : Nat) :
    PostingPhase -> Prop
  | .idle => True
  | .begun _ => True
  | .locked _ => db.channel channelId = none ∨ holder = some transaction
  | .numbered _ tsSeq => (db.channel channelId = none ∨ holder = some transaction) ∧
      tsSeq = nextTsSeq db channelId
  | .written posting tables => holder = some transaction ∧
      posting.write db channelId (nextTsSeq db channelId) = some tables

structure Serial (channelId : UUID) (state : PostingState) : Prop where
  counts : Counts state.db channelId
  phases : ∀ transaction, Orderly channelId state.db state.holder transaction (state.phase transaction)

section Steps

variable {channelId : UUID} {state : PostingState} {transaction : Nat}

theorem Serial.advance {phase : PostingPhase} {holder : Option Nat} (serial : Serial channelId state)
    (kept : ∀ other ≠ transaction, state.holder = some other -> holder = some other)
    (orderly : Orderly channelId state.db holder transaction phase) :
    Serial channelId ⟨state.db, Function.update state.phase transaction phase, holder⟩ where
  counts := serial.counts
  phases := by
    intro other
    dsimp only
    by_cases same : other = transaction
    · rw [same, Function.update_self]
      exact orderly
    · rw [Function.update_of_ne same]
      have before := serial.phases other
      cases at_ : state.phase other with
      | idle => trivial
      | begun => trivial
      | locked =>
        rw [at_] at before
        exact before.imp_right (kept other same)
      | numbered =>
        rw [at_] at before
        exact ⟨before.1.imp_right (kept other same), before.2⟩
      | written =>
        rw [at_] at before
        exact ⟨kept other same before.1, before.2⟩

theorem Serial.enter {phase : PostingPhase} (serial : Serial channelId state)
    (orderly : Orderly channelId state.db state.holder transaction phase) :
    Serial channelId (state.enter transaction phase) :=
  serial.advance (fun _ _ holds => holds) orderly

theorem Serial.abort (serial : Serial channelId state) :
    Serial channelId (state.finish transaction state.db) := by
  refine serial.advance (fun other apart holds => ?_) trivial
  rw [if_neg fun mine => apart (Option.some_inj.mp (holds.symm.trans mine)), holds]

theorem Serial.commit {posting : Posting} {tables : Database} (serial : Serial channelId state)
    (here : state.phase transaction = .written posting tables) :
    Serial channelId (state.finish transaction tables) := by
  have mine := serial.phases transaction
  rw [here] at mine
  refine ⟨counts_written serial.counts mine.2, fun other => ?_⟩
  unfold PostingState.finish
  dsimp only
  by_cases same : other = transaction
  · rw [same, Function.update_self]
    trivial
  · rw [Function.update_of_ne same]
    have excluded : Not (state.db.channel channelId = none ∨ state.holder = some other) := by
      rintro (missing | holds)
      · have known := (posting.written mine.2).2
        rw [missing] at known
        cases known
      · exact same (Option.some_inj.mp (holds.symm.trans mine.1))
    have before := serial.phases other
    cases at_ : state.phase other with
    | idle => trivial
    | begun => trivial
    | locked =>
      rw [at_] at before
      exact absurd before excluded
    | numbered =>
      rw [at_] at before
      exact absurd before.1 excluded
    | written =>
      rw [at_] at before
      exact absurd (.inr before.1) excluded

theorem Serial.step (serial : Serial channelId state) (input : PostingInput) :
    Serial channelId (state.step channelId input) := by
  cases input with
  | begin transaction posting =>
    unfold PostingState.step
    dsimp only
    split
    · split
      · exact serial
      · exact serial.enter trivial
    · exact serial
  | lock transaction =>
    unfold PostingState.step
    dsimp only
    split
    case h_1 posting at_ =>
      split
      case isTrue missing => exact serial.enter (.inl missing)
      case isFalse =>
        split
        case isTrue free =>
          refine serial.advance (fun other _ holds => ?_) (.inr rfl)
          rw [free] at holds
          cases holds
        case isFalse => exact serial
    case h_2 => exact serial
  | number transaction =>
    unfold PostingState.step
    dsimp only
    split
    case h_1 posting at_ =>
      have before := serial.phases transaction
      rw [at_] at before
      exact serial.enter ⟨before, rfl⟩
    case h_2 => exact serial
  | write transaction =>
    unfold PostingState.step
    dsimp only
    split
    case h_1 posting tsSeq at_ =>
      have before := serial.phases transaction
      rw [at_] at before
      split
      case h_1 tables isWritten =>
        rw [before.2] at isWritten
        refine serial.enter ⟨before.1.resolve_left fun missing => ?_, isWritten⟩
        have known := (posting.written isWritten).2
        rw [missing] at known
        cases known
      case h_2 => exact serial.abort
    case h_2 => exact serial
  | commit transaction =>
    unfold PostingState.step
    dsimp only
    split
    case h_1 posting tables at_ => exact serial.commit at_
    case h_2 => exact serial
  | abort transaction => exact serial.abort

end Steps

/-! ## The order of the time stamps -/

def second (row : StoredMessage) : Nat :=
  row.createdAt / 1000000

/-- The time stamps of the rows ascend with their numbers. -/
def Ascends (rows : List StoredMessage) : Prop :=
  ∀ first later, first ∈ rows -> later ∈ rows -> first.tsSeq < later.tsSeq ->
    ∃ earlierTs laterTs,
      parseSlackTs (formatSlackTs first.createdAt first.tsSeq) = some earlierTs ∧
      parseSlackTs (formatSlackTs later.createdAt later.tsSeq) = some laterTs ∧
      Precedes earlierTs laterTs

/-- The numbers count the messages, the time stamps ascend with them, and both
can be read back from a time stamp. -/
structure Projects (channelId : UUID) (db : Database) : Prop where
  counts : Counts db channelId
  ascends : Ascends (channelRows db channelId)
  recovers : ∀ createdAt tsSeq, 1 ≤ tsSeq -> parseSlackTs (formatSlackTs createdAt tsSeq) =
    some (((createdAt / 1000000 : Nat) : Int), (tsSeq : Int))

theorem precedes_iff {first later : StoredMessage} (numbers : first.tsSeq < later.tsSeq) :
    (∃ earlierTs laterTs,
      parseSlackTs (formatSlackTs first.createdAt first.tsSeq) = some earlierTs ∧
      parseSlackTs (formatSlackTs later.createdAt later.tsSeq) = some laterTs ∧
      Precedes earlierTs laterTs) <-> second first ≤ second later := by
  simp only [parse_formatSlackTs, Option.some_inj, exists_and_left, exists_eq_left', Precedes]
  rw [Int.ofNat_lt, Int.ofNat_lt, Int.ofNat_inj]
  unfold second
  omega

theorem ascends_iff (counts : Counts db channelId) : Ascends (channelRows db channelId) <->
      (channelRows db channelId).Pairwise fun first later => second first ≤ second later := by
  have ordered : (channelRows db channelId).Pairwise fun first later => first.tsSeq < later.tsSeq := by
    have numbers := List.pairwise_lt_range' (s := 1) (n := (channelRows db channelId).length)
    rw [← counts] at numbers
    exact List.pairwise_map.mp numbers
  constructor
  · intro ascends
    refine ordered.imp_of_mem fun firstIn laterIn less => ?_
    exact (precedes_iff less).mp (ascends _ _ firstIn laterIn less)
  · intro grows first later firstIn laterIn less
    refine (precedes_iff less).mpr ?_
    let Agree := fun first later : StoredMessage =>
      (first.tsSeq < later.tsSeq -> second first ≤ second later) ∧
        (later.tsSeq < first.tsSeq -> second later ≤ second first)
    have symmetric : Std.Symm Agree := ⟨fun _ _ agree => agree.symm⟩
    have all : (channelRows db channelId).Pairwise Agree :=
      ordered.imp₂ (fun _ _ less grows => ⟨fun _ => grows, fun more => absurd more (Nat.lt_asymm less)⟩)
        grows
    have apart : first ≠ later := fun same => absurd less (same ▸ Nat.lt_irrefl _)
    exact (all.forall firstIn laterIn apart).1 less

/-- A transaction commits only if no message of the channel began in a later second. -/
def CommitsInOrder (channelId : UUID) (state : PostingState) : PostingInput -> Prop
  | .commit transaction =>
    match state.phase transaction with
    | .written posting _ => ∀ row ∈ channelRows state.db channelId,
        row.createdAt / 1000000 ≤ posting.fresh.now / 1000000
    | _ => True
  | _ => True

theorem projects_iff (counts : Counts db channelId) : Projects channelId db <->
      (channelRows db channelId).Pairwise fun first later => second first ≤ second later := by
  constructor
  · intro projects
    exact (ascends_iff counts).mp projects.ascends
  · intro grows
    exact ⟨counts, (ascends_iff counts).mpr grows, fun createdAt tsSeq _ =>
      parse_formatSlackTs createdAt tsSeq⟩

section Runs

variable {channelId : UUID} {state : PostingState}

theorem db_step {input : PostingInput} (other : ∀ transaction, input ≠ .commit transaction) :
    (state.step channelId input).db = state.db := by
  cases input with
  | commit transaction => exact absurd rfl (other transaction)
  | abort => rfl
  | begin =>
    unfold PostingState.step
    dsimp only
    split
    · split <;> rfl
    · rfl
  | lock =>
    unfold PostingState.step
    dsimp only
    split
    · split
      · rfl
      · split <;> rfl
    · rfl
  | number =>
    unfold PostingState.step
    dsimp only
    split <;> rfl
  | write =>
    unfold PostingState.step
    dsimp only
    split
    · split <;> rfl
    · rfl

theorem projects_step (serial : Serial channelId state) (projects : Projects channelId state.db)
    (input : PostingInput) :
    Projects channelId (state.step channelId input).db <-> CommitsInOrder channelId state input := by
  cases input with
  | commit transaction =>
    unfold PostingState.step CommitsInOrder
    dsimp only
    cases at_ : state.phase transaction with
    | written posting tables =>
      have mine := serial.phases transaction
      rw [at_] at mine
      have ⟨_, isWritten⟩ := mine
      have grows := (projects_iff serial.counts).mp projects
      change Projects channelId tables <-> _
      rw [projects_iff (counts_written serial.counts isWritten), channelRows_written isWritten,
        List.pairwise_append]
      constructor
      · rintro ⟨_, _, across⟩ row member
        exact across row member _ (List.mem_singleton_self _)
      · intro inOrder
        refine ⟨grows, List.pairwise_singleton _ _, fun row member new isNew => ?_⟩
        rw [List.mem_singleton.mp isNew]
        exact inOrder row member
    | _ => exact iff_of_true projects trivial
  | _ =>
    rw [db_step (fun _ same => by cases same)]
    exact iff_of_true projects trivial

/-- In a channel which began without messages, numbers and time stamps are right
throughout a run exactly if the transactions commit in the order of the seconds in
which they began. -/
theorem projects_exactly {db : Database} (empty : channelRows db channelId = [])
    (inputs : List PostingInput) :
    (postingMachine db channelId).EveryState (fun state => Projects channelId state.db) inputs <->
      (postingMachine db channelId).EveryStep (CommitsInOrder channelId) inputs := by
  have counts : Counts db channelId := by
    unfold Counts
    rw [empty]
    rfl
  have initially : Projects channelId db := by
    refine (projects_iff counts).mpr ?_
    rw [empty]
    exact List.Pairwise.nil
  exact (postingMachine db channelId).everyState_iff_everyStep (Serial channelId) initially
    ⟨counts, fun _ => trivial⟩ (fun _ input serial => serial.step input)
    (fun _ input serial projects => projects_step serial projects input) inputs

end Runs

instance neZero_two : @NeZero Nat Zero.ofOfNat0 2 := ⟨Nat.succ_ne_zero 1⟩

def lobby : Database where
  users := [{ id := 1, workspaceId := 10, email := "ann@example.org", kind := .human, role := .member }]
  channels := [{
    id := 5, workspaceId := 10, kind := .publicChannel, postingPolicy := .all, isArchived := false }]
  usersById := by decide
  channelsById := channels_nil.insert (List.forall_mem_nil _)
  membersByPair := members_nil
  messagesById := messages_nil
  messagesBySequence := sequences_nil
  messagesByClientMsgId := clients_nil

/-- A message which is begun at the time. -/
def greeting (number : Nat) (start : Timestamp) : Posting where
  workspaceId := 10
  authorId := 1
  text := some "hello"
  blocks := none
  parentId := none
  clientMsgId := none
  kind := .text
  fresh := {
    messageId := BitVec.ofNat 128 number, outboxId := BitVec.ofNat 128 number, now := start, clock := start }

/-- What a transaction does once it has begun. -/
def beyondBegin (transaction : Nat) : List PostingInput :=
  [.lock transaction, .number transaction, .write transaction, .commit transaction]

theorem projects_oneAfterAnother : (postingMachine lobby 5).EveryState
    (fun state => Projects 5 state.db)
    (.begin 0 (greeting 1 1000000) :: .begin 1 (greeting 2 2000000) :: beyondBegin 0 ++ beyondBegin 1) := by
  refine (projects_exactly rfl _).mpr ((Machine.everyStep_iff_stepsFrom _ _ _).mpr ?_)
  refine ⟨trivial, trivial, trivial, trivial, trivial, ?_, trivial, trivial, trivial, ?_, trivial⟩
  · intro row member
    cases member
  · intro row member
    cases List.mem_singleton.mp member
    decide

/-- The transaction which began in a later second takes the lock first: the
second message has the earlier time stamp. -/
theorem projects_overtaken : Not ((postingMachine lobby 5).EveryState
    (fun state => Projects 5 state.db)
    (.begin 0 (greeting 1 1000000) :: .begin 1 (greeting 2 2000000) :: beyondBegin 1 ++ beyondBegin 0)) := by
  intro every
  have projects := Machine.EveryState.last _ every
  have numbers : ((greeting 2 2000000).row 5 1).tsSeq < ((greeting 1 1000000).row 5 2).tsSeq := by decide
  have ascends := projects.ascends ((greeting 2 2000000).row 5 1) ((greeting 1 1000000).row 5 2)
    List.mem_cons_self (List.mem_cons_of_mem _ List.mem_cons_self) numbers
  exact absurd ((precedes_iff numbers).mp ascends) (by decide)

/-- Whatever overlaps, the numbers count the committed messages of a channel which began without any. -/
theorem counts_always {db : Database} {channelId : UUID} (empty : channelRows db channelId = [])
    (inputs : List PostingInput) :
    Counts ((postingMachine db channelId).after inputs).db channelId := by
  have counts : Counts db channelId := by
    unfold Counts
    rw [empty]
    rfl
  exact ((postingMachine db channelId).invariant_after (Serial channelId) ⟨counts, fun _ => trivial⟩
    (fun _ input serial => serial.step input) inputs).counts

theorem counts_lobby : Counts ((postingMachine lobby 5).after (.begin 0 (greeting 1 1000000) ::
    .begin 1 (greeting 2 2000000) :: beyondBegin 1 ++ beyondBegin 0)).db 5 :=
  counts_always rfl _

end Messenger
end BreadMind
