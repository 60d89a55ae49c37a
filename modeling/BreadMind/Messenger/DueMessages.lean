import BreadMind.Messenger.Sequencing

namespace BreadMind
namespace Messenger

open Execution

/-!
# Posting the messages that are due

A run of `dispatch_due_messages` selects the due messages, and then posts each of
them and notes the identifier of the message it has become.  The selection, the
post and the note are transactions of their own, and nothing marks a row as taken
in between.  An exception ends the run.

Runs overlap when one takes longer than the time between two ticks, or when two
workers tick.  Other transactions on the tables come in between anywhere.
-/

structure ScheduledRow where
  id : UUID
  workspaceId : UUID
  channelId : UUID
  authorId : UUID
  text : Option String
  blocks : List Json
  scheduledFor : Timestamp
  sentMessageId : Option UUID := none
  cancelledAt : Option Timestamp := none

def isDue (now : Timestamp) (row : ScheduledRow) : Bool :=
  row.scheduledFor ≤ now ∧ row.sentMessageId = none ∧ row.cancelledAt = none

/-- The rows which a run selects, the oldest first.  Rows of one time come in the
order of the ranks. -/
def dueRows (scheduled : List ScheduledRow) (now : Timestamp) (rank : UUID -> Nat) : List ScheduledRow :=
  (((scheduled.filter (isDue now)).insertionSort fun row other => rank row.id ≤ rank other.id).insertionSort
    fun row other => row.scheduledFor ≤ other.scheduledFor).take 100

/-- The post of a row: the message it becomes, or an exception. -/
def postDue (db : Database) (row : ScheduledRow) (fresh : Fresh) : Option (UUID × Database) :=
  match postMessage db row.workspaceId row.channelId row.authorId row.text (some row.blocks) none none .text
      fresh with
  | .ok (message, after) => some (message.id, after)
  | .error _ => none

variable (row : ScheduledRow) (messageId : UUID)

def note (other : ScheduledRow) : ScheduledRow :=
  if other.id = row.id then { other with sentMessageId := some messageId } else other

inductive DuePhase where
  | idle
  | posting (row : ScheduledRow) (rest : List ScheduledRow)
  /-- The row is posted, and `sent_message_id` is still to be set. -/
  | marking (row : ScheduledRow) (messageId : UUID) (rest : List ScheduledRow)

namespace DuePhase

def next : List ScheduledRow -> DuePhase
  | [] => idle
  | row :: rest => posting row rest

def rows : DuePhase -> List ScheduledRow
  | idle => []
  | posting row rest => row :: rest
  | marking row _ rest => row :: rest

def Marks (id : UUID) : DuePhase -> Prop
  | marking row _ _ => row.id = id
  | _ => False

end DuePhase

/-- A row that was posted, and whether it was cancelled at that time. -/
structure DuePost where
  scheduledId : UUID
  cancelled : Bool

/-- The tables and the runs.  The last three fields are a history: what was posted,
which posts were never noted because the run was cut off, and which rows were
dropped because another one failed. -/
structure DueState (count : Nat) where
  db : Database
  scheduled : List ScheduledRow
  phase : Fin count -> DuePhase
  posts : List DuePost
  unnoted : List UUID
  dropped : List UUID

inductive DueInput (count : Nat) where
  /-- `schedule_message`, with a new identifier. -/
  | schedule (row : ScheduledRow) (now : Timestamp)
  /-- `cancel_scheduled`. -/
  | cancel (id userId : UUID) (now : Timestamp)
  | select (run : Fin count) (now : Timestamp) (rank : UUID -> Nat)
  /-- `post_message`, which may run into a failure of the database. -/
  | post (run : Fin count) (fresh : Fresh) (raises : Bool)
  | mark (run : Fin count)
  /-- The run is cut off. -/
  | stop (run : Fin count)
  /-- Some other transaction on the messenger's tables. -/
  | elsewhere (after : Database)

namespace DueState

variable {count : Nat} (state : DueState count) (run : Fin count)

def isCancelled (id : UUID) : Bool :=
  state.scheduled.any fun row => row.id = id ∧ row.cancelledAt ≠ none

def enter (phase : DuePhase) : DueState count :=
  { state with phase := Function.update state.phase run phase }

/-- The post of a row, if the database does not fail. -/
def attempt (row : ScheduledRow) (fresh : Fresh) (raises : Bool) : Option (UUID × Database) :=
  if raises then none else postDue state.db row fresh

def step : DueInput count -> DueState count
  | .schedule row now =>
    if row.scheduledFor ≤ now ∨ state.scheduled.any (fun other => other.id = row.id) then state
    else
      { state with
        scheduled := state.scheduled ++ [{ row with sentMessageId := none, cancelledAt := none }] }
  | .cancel id userId now =>
    { state with
      scheduled := state.scheduled.map fun row =>
        if row.id = id ∧ row.authorId = userId ∧ row.cancelledAt = none then
          { row with cancelledAt := some now }
        else row }
  | .select run now rank =>
    match state.phase run with
    | .idle => state.enter run (.next (dueRows state.scheduled now rank))
    | _ => state
  | .post run fresh raises =>
    match state.phase run with
    | .posting row rest =>
      match state.attempt row fresh raises with
      | some (messageId, after) =>
        { state.enter run (.marking row messageId rest) with
          db := after
          posts := state.posts ++ [{ scheduledId := row.id, cancelled := state.isCancelled row.id }] }
      -- The exception leaves the loop with the rows that are still to come.
      | none => { state.enter run .idle with dropped := state.dropped ++ rest.map ScheduledRow.id }
    | _ => state
  | .mark run =>
    match state.phase run with
    | .marking row messageId rest =>
      { state.enter run (.next rest) with
        scheduled := state.scheduled.map (note row messageId) }
    | _ => state
  | .stop run =>
    match state.phase run with
    | .marking row _ _ => { state.enter run .idle with unnoted := state.unnoted ++ [row.id] }
    | _ => state.enter run .idle
  | .elsewhere after => { state with db := after }

end DueState

def dueMachine (count : Nat) (db : Database) : Machine (DueState count) (DueInput count) where
  initial := { db, scheduled := [], phase := fun _ => .idle, posts := [], unnoted := [], dropped := [] }
  step := DueState.step

/-- What the runs are for: no row is posted twice, none after it was cancelled,
and no failing row keeps the others of its run from being posted. -/
structure DispatchesDue {count : Nat} (state : DueState count) : Prop where
  once : (state.posts.map DuePost.scheduledId).Nodup
  uncancelled : ∀ post ∈ state.posts, post.cancelled = false
  others : state.dropped = []

variable {count : Nat} {state : DueState count} {run : Fin count}

/-- The row was posted and that is noted, is about to be noted, or was lost with a run. -/
def Taken (state : DueState count) (id : UUID) : Prop :=
  (∃ row ∈ state.scheduled, row.id = id ∧ row.sentMessageId ≠ none) ∨
    (∃ run, (state.phase run).Marks id) ∨ id ∈ state.unnoted

/-- A row is posted only while it is neither taken nor cancelled, and only the last
row of a run fails. -/
def PostsSafely (state : DueState count) : DueInput count -> Prop
  | .post run fresh raises =>
    match state.phase run with
    | .posting row rest =>
      if (state.attempt row fresh raises).isSome then
        Not (Taken state row.id) ∧ state.isCancelled row.id = false
      else rest = []
    | _ => True
  | _ => True

/-! ## What is posted is taken -/

structure Tracked (state : DueState count) : Prop where
  stored : ∀ run row, row ∈ (state.phase run).rows ->
    ∃ other ∈ state.scheduled, other.id = row.id
  taken : ∀ id, id ∈ state.posts.map DuePost.scheduledId <-> Taken state id

def TakenElsewhere (state : DueState count) (run : Fin count) (id : UUID) : Prop :=
  (∃ row ∈ state.scheduled, row.id = id ∧ row.sentMessageId ≠ none) ∨
    (∃ other, other ≠ run ∧ (state.phase other).Marks id) ∨ id ∈ state.unnoted

theorem taken_iff (state : DueState count) (run : Fin count) (id : UUID) :
    Taken state id <-> (state.phase run).Marks id ∨ TakenElsewhere state run id := by
  have marks : (∃ other, (state.phase other).Marks id) <->
      (state.phase run).Marks id ∨ ∃ other, other ≠ run ∧ (state.phase other).Marks id := by
    constructor
    · rintro ⟨other, marks⟩
      by_cases same : other = run
      · exact .inl (same ▸ marks)
      · exact .inr ⟨other, same, marks⟩
    · rintro (marks | ⟨other, _, marks⟩)
      · exact ⟨run, marks⟩
      · exact ⟨other, marks⟩
  unfold Taken TakenElsewhere
  rw [marks, or_assoc, or_left_comm]

theorem takenElsewhere_enter (state : DueState count) (run : Fin count) (next : DuePhase) (id : UUID) :
    TakenElsewhere (state.enter run next) run id <-> TakenElsewhere state run id := by
  refine or_congr Iff.rfl (or_congr (exists_congr fun other => and_congr_right fun apart => ?_) Iff.rfl)
  change (Function.update state.phase run next other).Marks id <-> _
  rw [Function.update_of_ne apart]

theorem taken_enter (state : DueState count) (run : Fin count) (next : DuePhase) (id : UUID) :
    Taken (state.enter run next) id <-> next.Marks id ∨ TakenElsewhere state run id := by
  rw [taken_iff _ run, takenElsewhere_enter]
  change (Function.update state.phase run next run).Marks id ∨ _ <-> _
  rw [Function.update_self]

theorem not_marks_next (rows : List ScheduledRow) (id : UUID) : Not ((DuePhase.next rows).Marks id) := by
  cases rows <;> exact fun impossible => impossible

theorem stored_enter {next : DuePhase} (tracked : Tracked state) (stored : ∀ row ∈ next.rows,
      ∃ other ∈ state.scheduled, other.id = row.id) :
    ∀ other row, row ∈ ((state.enter run next).phase other).rows ->
      ∃ stored ∈ state.scheduled, stored.id = row.id := by
  intro other row member
  by_cases same : other = run
  · rw [same] at member
    exact stored row ((Function.update_self run next state.phase) ▸ member)
  · exact tracked.stored other row ((Function.update_of_ne same next state.phase) ▸ member)

theorem Tracked.enter {next : DuePhase} (tracked : Tracked state) (stored : ∀ row ∈ next.rows,
      ∃ other ∈ state.scheduled, other.id = row.id)
    (same : ∀ id, next.Marks id <-> (state.phase run).Marks id) : Tracked (state.enter run next) where
  stored := stored_enter tracked stored
  taken := by
    intro id
    rw [taken_enter, same, ← taken_iff]
    exact tracked.taken id

theorem Tracked.change {change : ScheduledRow -> ScheduledRow} (tracked : Tracked state)
    (ids : ∀ row, (change row).id = row.id)
    (notes : ∀ row, (change row).sentMessageId = row.sentMessageId) :
    Tracked { state with scheduled := state.scheduled.map change } where
  stored := by
    intro run row member
    rcases tracked.stored run row member with ⟨other, stored, same⟩
    exact ⟨change other, List.mem_map_of_mem stored, (ids other).trans same⟩
  taken := by
    intro id
    refine (tracked.taken id).trans (or_congr ⟨?_, ?_⟩ Iff.rfl)
    · rintro ⟨row, stored, same, noted⟩
      exact ⟨change row, List.mem_map_of_mem stored, (ids row).trans same, notes row ▸ noted⟩
    · rintro ⟨changed, member, same, noted⟩
      rcases List.mem_map.mp member with ⟨row, stored, rfl⟩
      exact ⟨row, stored, (ids row).symm.trans same, notes row ▸ noted⟩

theorem dueRows_stored {scheduled : List ScheduledRow} {now : Timestamp} {rank : UUID -> Nat}
    {row : ScheduledRow} (member : row ∈ (DuePhase.next (dueRows scheduled now rank)).rows) :
    row ∈ scheduled := by
  have selected : row ∈ dueRows scheduled now rank := by
    cases rows : dueRows scheduled now rank with
    | nil =>
      rw [rows] at member
      cases member
    | cons first rest =>
      rw [rows] at member
      exact member
  have sorted := (List.mem_insertionSort _).mp (List.mem_of_mem_take selected)
  exact (List.mem_filter.mp ((List.mem_insertionSort _).mp sorted)).1

theorem id_note (other : ScheduledRow) : (note row messageId other).id = other.id := by
  unfold note
  split <;> rfl

theorem note_iff {scheduled : List ScheduledRow}
    (stored : ∃ other ∈ scheduled, other.id = row.id) (id : UUID) :
    (∃ other ∈ scheduled.map (note row messageId), other.id = id ∧ other.sentMessageId ≠ none) <->
      (∃ other ∈ scheduled, other.id = id ∧ other.sentMessageId ≠ none) ∨ id = row.id := by
  constructor
  · rintro ⟨changed, member, same, noted⟩
    rcases List.mem_map.mp member with ⟨other, inTable, rfl⟩
    rw [id_note] at same
    unfold note at noted
    split at noted
    case isTrue here => exact .inr (same.symm.trans here)
    case isFalse => exact .inl ⟨other, inTable, same, noted⟩
  · rintro (⟨other, inTable, same, noted⟩ | rfl)
    · refine ⟨_, List.mem_map_of_mem inTable, (id_note row messageId other).trans same, ?_⟩
      unfold note
      split
      · exact Option.some_ne_none messageId
      · exact noted
    · rcases stored with ⟨other, inTable, here⟩
      refine ⟨_, List.mem_map_of_mem inTable, (id_note row messageId other).trans here, ?_⟩
      unfold note
      rw [if_pos here]
      exact Option.some_ne_none messageId

theorem Tracked.step (tracked : Tracked state) (input : DueInput count) : Tracked (state.step input) := by
  cases input with
  | elsewhere after => exact ⟨tracked.stored, tracked.taken⟩
  | schedule row now =>
    unfold DueState.step
    dsimp only
    split
    case isTrue => exact tracked
    case isFalse =>
      refine ⟨fun run other member => ?_, fun id => (tracked.taken id).trans (or_congr ⟨?_, ?_⟩ Iff.rfl)⟩
      · rcases tracked.stored run other member with ⟨stored, inTable, same⟩
        exact ⟨stored, List.mem_append_left _ inTable, same⟩
      · rintro ⟨other, inTable, noted⟩
        exact ⟨other, List.mem_append_left _ inTable, noted⟩
      · rintro ⟨other, member, same, noted⟩
        rcases List.mem_append.mp member with old | new
        · exact ⟨other, old, same, noted⟩
        · rw [List.mem_singleton.mp new] at noted
          exact absurd rfl noted
  | cancel id userId now =>
    refine tracked.change (fun row => ?_) (fun row => ?_)
    · split <;> rfl
    · split <;> rfl
  | select run now rank =>
    unfold DueState.step
    dsimp only
    split
    case h_2 => exact tracked
    case h_1 at_ =>
      refine tracked.enter (fun row member => ⟨row, dueRows_stored member, rfl⟩) fun id => ?_
      rw [at_]
      exact iff_of_false (not_marks_next _ id) fun impossible => impossible
  | post run fresh raises =>
    unfold DueState.step
    dsimp only
    split
    case h_2 => exact tracked
    case h_1 row rest at_ =>
      have mine := tracked.stored run
      rw [at_] at mine
      split
      case h_1 messageId after isPosted =>
        refine ⟨stored_enter tracked mine, fun id => ?_⟩
        change id ∈ (state.posts ++ [_]).map DuePost.scheduledId <->
          Taken (state.enter run (.marking row messageId rest)) id
        rw [List.map_append, List.mem_append, tracked.taken id, taken_enter, taken_iff state run, at_]
        change (False ∨ _) ∨ id ∈ [row.id] <-> row.id = id ∨ _
        rw [false_or, List.mem_singleton, or_comm, eq_comm]
      case h_2 =>
        refine ⟨stored_enter tracked fun other none_ => (nomatch none_), fun id => ?_⟩
        refine (tracked.taken id).trans ?_
        change _ <-> Taken (state.enter run .idle) id
        rw [taken_enter, taken_iff state run, at_]
        rfl
  | mark run =>
    unfold DueState.step
    dsimp only
    split
    case h_2 => exact tracked
    case h_1 row messageId rest at_ =>
      have mine := tracked.stored run
      rw [at_] at mine
      have later : ∀ other ∈ (DuePhase.next rest).rows,
          ∃ stored ∈ state.scheduled, stored.id = other.id := by
        intro other member
        refine mine other (List.mem_cons_of_mem row ?_)
        cases rest with
        | nil => cases member
        | cons first others => exact member
      refine ⟨fun other taken member => ?_, fun id => (tracked.taken id).trans ?_⟩
      · rcases stored_enter tracked later other taken member with ⟨stored, inTable, same⟩
        exact ⟨_, List.mem_map_of_mem inTable, (id_note row messageId stored).trans same⟩
      · have noted : Taken { state.enter run (.next rest) with
              scheduled := state.scheduled.map (note row messageId) } id <->
            Taken (state.enter run (.next rest)) id ∨ id = row.id := by
          unfold Taken
          dsimp only
          rw [note_iff row messageId (mine row List.mem_cons_self) id, or_right_comm]
          rfl
        rw [noted, taken_enter, taken_iff state run, at_, iff_false_intro (not_marks_next rest id),
          false_or, or_comm, eq_comm]
        rfl
  | stop run =>
    unfold DueState.step
    dsimp only
    split
    case h_1 row messageId rest at_ =>
      refine ⟨stored_enter tracked fun other none_ => (nomatch none_), fun id => ?_⟩
      refine (tracked.taken id).trans ?_
      have lost : Taken { state.enter run .idle with unnoted := state.unnoted ++ [row.id] } id <->
          Taken (state.enter run .idle) id ∨ id = row.id := by
        unfold Taken
        dsimp only
        rw [List.mem_append, List.mem_singleton, or_assoc, or_assoc]
        rfl
      rw [lost, taken_enter, taken_iff state run, at_]
      change row.id = id ∨ _ <-> (False ∨ _) ∨ id = row.id
      rw [false_or, or_comm, eq_comm]
    case h_2 other =>
      refine tracked.enter (fun other none_ => (nomatch none_)) fun id => ?_
      cases at_ : state.phase run with
      | marking row messageId rest => exact absurd at_ (other row messageId rest)
      | _ => rfl

theorem dispatchesDue_step (tracked : Tracked state) (dispatches : DispatchesDue state)
    (input : DueInput count) : DispatchesDue (state.step input) <-> PostsSafely state input := by
  have unchanged {after : DueState count} (posts : after.posts = state.posts)
      (dropped : after.dropped = state.dropped) : DispatchesDue after :=
    ⟨posts ▸ dispatches.once, posts ▸ dispatches.uncancelled, dropped.trans dispatches.others⟩
  cases input with
  | elsewhere after => exact iff_of_true (unchanged rfl rfl) trivial
  | cancel id userId now => exact iff_of_true (unchanged rfl rfl) trivial
  | schedule row now | select run now rank | mark run | stop run =>
    refine iff_of_true ?_ trivial
    unfold DueState.step
    dsimp only
    split <;> exact unchanged rfl rfl
  | post run fresh raises =>
    unfold DueState.step PostsSafely
    dsimp only
    cases at_ : state.phase run with
    | idle => exact iff_of_true dispatches trivial
    | marking row messageId rest => exact iff_of_true dispatches trivial
    | posting row rest =>
      dsimp only
      cases attempted : state.attempt row fresh raises with
      | none =>
        dsimp only [Option.isSome]
        rw [if_neg Bool.false_ne_true]
        constructor
        · intro after
          have none_ : state.dropped ++ rest.map ScheduledRow.id = [] := after.others
          exact List.map_eq_nil_iff.mp (List.append_eq_nil_iff.mp none_).2
        · rintro rfl
          exact unchanged rfl (List.append_nil _)
      | some posted =>
        dsimp only [Option.isSome]
        rw [if_pos rfl, ← tracked.taken]
        constructor
        · intro after
          have once : ((state.posts ++ [_]).map DuePost.scheduledId).Nodup := after.once
          rw [List.map_append] at once
          refine ⟨fun before => ?_,
            after.uncancelled _ (List.mem_append_right _ (List.mem_singleton_self _))⟩
          exact (List.nodup_append.mp once).2.2 row.id before row.id (List.mem_singleton_self _) rfl
        · rintro ⟨new, uncancelled⟩
          refine ⟨?_, fun post member => ?_, dispatches.others⟩
          · change ((state.posts ++ [_]).map DuePost.scheduledId).Nodup
            rw [List.map_append]
            refine List.nodup_append.mpr ⟨dispatches.once, List.nodup_singleton _, ?_⟩
            intro id before other isNew same
            rw [same, List.mem_singleton.mp isNew] at before
            exact new before
          · rcases List.mem_append.mp member with old | isNew
            · exact dispatches.uncancelled post old
            · rw [List.mem_singleton.mp isNew]
              exact uncancelled

/-- Due messages are dispatched as they should be exactly if rows are posted only
while neither taken nor cancelled and no failing row has others behind it. -/
theorem dispatchesDue_exactly (count : Nat) (db : Database) (inputs : List (DueInput count)) :
    (dueMachine count db).EveryState DispatchesDue inputs <->
      (dueMachine count db).EveryStep PostsSafely inputs := by
  refine (dueMachine count db).everyState_iff_everyStep Tracked
    ⟨List.nodup_nil, fun _ none_ => (nomatch none_), rfl⟩
    ⟨fun _ _ none_ => (nomatch none_), fun id => iff_of_false (fun none_ => (nomatch none_)) ?_⟩
    (fun _ input tracked => tracked.step input)
    (fun _ input tracked dispatches => dispatchesDue_step tracked dispatches input) inputs
  rintro (⟨_, none_, _⟩ | ⟨_, none_⟩ | none_)
  · cases none_
  · exact none_
  · cases none_

def reminder (number : Nat) (text : String) : ScheduledRow where
  id := BitVec.ofNat 128 number
  workspaceId := 10
  channelId := 5
  authorId := 1
  text := some text
  blocks := []
  scheduledFor := 100

def anew (number : Nat) : Fresh where
  messageId := BitVec.ofNat 128 number
  outboxId := BitVec.ofNat 128 number
  now := 200
  clock := 200

/-- Two ticks select one row before either has noted it. -/
def overlappingTicks : List (DueInput 2) :=
  [.schedule (reminder 7 "hello") 50, .select 0 100 fun _ => 0, .select 1 100 fun _ => 0,
    .post 0 (anew 1) false, .mark 0, .post 1 (anew 2) false]

theorem posted_twice : Not ((dueMachine 2 lobby).EveryState DispatchesDue overlappingTicks) := by
  intro every
  have once := (Machine.EveryState.last _ every).once
  have ids : ((dueMachine 2 lobby).after overlappingTicks).posts.map DuePost.scheduledId = [7, 7] := rfl
  rw [ids] at once
  exact absurd once (by decide)

end Messenger
end BreadMind
