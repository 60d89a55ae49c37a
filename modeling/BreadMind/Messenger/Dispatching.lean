import BreadMind.Messenger.Database
import BreadMind.Execution.Schedules
import Mathlib.Data.List.Sort

namespace BreadMind
namespace Messenger

open Execution
open Function (update update_of_ne update_self)

/-!
# Publishing the outbox

Dispatchers run side by side.  A batch is one transaction: its `SELECT` walks
through the rows, the oldest first, locks those which nobody has locked, and
stops at the limit; its rows are published one after the other, where a failure is
logged and passed over; at the end the published rows are deleted and all locks
released.  A batch that breaks off releases its locks and deletes nothing.

Rows come in when the transactions which wrote them commit.  Their `created_at` is
the time at which that transaction began.
-/

inductive DispatchPhase where
  | idle
  /-- The rows which the `SELECT` has still to look at, and those it has locked. -/
  | fetching (scan rows : List OutboxRow)
  /-- The rows already tried, those to come, and the identifiers of the published ones. -/
  | publishing (handled todo : List OutboxRow) (publishedIds : List UUID)

namespace DispatchPhase

def rows : DispatchPhase -> List OutboxRow
  | idle => []
  | fetching _ rows => rows
  | publishing handled todo _ => handled ++ todo

end DispatchPhase

/-- The table, its row locks, the dispatchers, and what Redis was handed so far.
`entered` lists the rows that were ever in the table. -/
structure OutboxState (count : Nat) where
  outbox : List OutboxRow
  lockedBy : UUID -> Option (Fin count)
  phase : Fin count -> DispatchPhase
  published : List OutboxRow
  entered : List OutboxRow

inductive OutboxInput (count : Nat) where
  /-- A transaction with the row commits.  Identifiers are drawn anew. -/
  | enqueue (row : OutboxRow)
  /-- The `SELECT` starts.  Rows of one time come in the order of the ranks. -/
  | select (dispatcher : Fin count) (rank : UUID -> Nat)
  /-- The `SELECT` looks at its next row, or ends. -/
  | visit (dispatcher : Fin count)
  | publish (dispatcher : Fin count) (succeeds : Bool)
  /-- `DELETE` and `COMMIT`. -/
  | commit (dispatcher : Fin count)
  /-- The connection is lost, or the task cancelled. -/
  | abort (dispatcher : Fin count)

namespace OutboxState

variable {count : Nat} (state : OutboxState count) (dispatcher : Fin count)

/-- The rows in the order in which a `SELECT` looks at them. -/
def scan (rank : UUID -> Nat) : List OutboxRow :=
  (state.outbox.insertionSort fun row other => rank row.id ≤ rank other.id).insertionSort
    fun row other => row.createdAt ≤ other.createdAt

def enter (phase : DispatchPhase) : OutboxState count :=
  { state with phase := update state.phase dispatcher phase }

def finish (deleted : List UUID) : OutboxState count :=
  { state with
    outbox := state.outbox.filter fun row => decide (row.id ∉ deleted)
    lockedBy := fun id => if state.lockedBy id = some dispatcher then none else state.lockedBy id
    phase := update state.phase dispatcher .idle }

def step (batchSize : Nat) : OutboxInput count -> OutboxState count
  | .enqueue row =>
    if state.entered.any fun other => other.id = row.id then state
    else { state with outbox := state.outbox ++ [row], entered := state.entered ++ [row] }
  | .select dispatcher rank =>
    match state.phase dispatcher with
    | .idle => state.enter dispatcher (.fetching (state.scan rank) [])
    | _ => state
  | .visit dispatcher =>
    match state.phase dispatcher with
    | .fetching scan rows =>
      if rows.length = batchSize then state.enter dispatcher (.publishing [] rows [])
      else match scan with
        | [] => state.enter dispatcher (.publishing [] rows [])
        | row :: rest =>
          -- `SKIP LOCKED`; a row which was deleted since is passed over too.
          if state.lockedBy row.id = none ∧ state.outbox.any fun other => other.id = row.id then
            { state.enter dispatcher (.fetching rest (rows ++ [row])) with
              lockedBy := update state.lockedBy row.id (some dispatcher) }
          else state.enter dispatcher (.fetching rest rows)
    | _ => state
  | .publish dispatcher succeeds =>
    match state.phase dispatcher with
    | .publishing handled (row :: rest) publishedIds =>
      if succeeds then
        { state.enter dispatcher (.publishing (handled ++ [row]) rest (publishedIds ++ [row.id])) with
          published := state.published ++ [row] }
      else state.enter dispatcher (.publishing (handled ++ [row]) rest publishedIds)
    | _ => state
  | .commit dispatcher =>
    match state.phase dispatcher with
    | .publishing _ [] publishedIds => state.finish dispatcher publishedIds
    | _ => state
  | .abort dispatcher => state.finish dispatcher []

end OutboxState

def outboxMachine (count batchSize : Nat) : Machine (OutboxState count) (OutboxInput count) where
  initial :=
    { outbox := [], lockedBy := fun _ => none, phase := fun _ => .idle, published := [], entered := [] }
  step := fun state input => state.step batchSize input

/-! ## What the batches hold -/

variable {count : Nat} {state after : OutboxState count} {dispatcher : Fin count}

structure HoldsRows (state : OutboxState count) (dispatcher : Fin count) (rows : List OutboxRow) :
    Prop where
  locked : ∀ row ∈ rows, row ∈ state.outbox ∧ state.lockedBy row.id = some dispatcher
  only : ∀ id, state.lockedBy id = some dispatcher -> ∃ row ∈ rows, row.id = id

def BatchSound (state : OutboxState count) : DispatchPhase -> Prop
  | .idle => True
  | .fetching scan rows =>
    ((rows ++ scan).Pairwise fun row later => row.createdAt ≤ later.createdAt) ∧
      ∀ row ∈ scan, row ∈ state.entered
  | .publishing handled todo publishedIds =>
    ((handled ++ todo).Pairwise fun row later => row.createdAt ≤ later.createdAt) ∧
      ∀ id ∈ publishedIds, ∃ row ∈ handled, row.id = id ∧
        row ∈ state.published

def Kept (state : OutboxState count) : Prop :=
  ∀ row ∈ state.entered, row ∈ state.outbox ∨ row ∈ state.published

structure Consistent (state : OutboxState count) : Prop where
  stored : ∀ row ∈ state.outbox, row ∈ state.entered
  distinct : state.entered.Pairwise fun row other => row.id ≠ other.id
  known : ∀ row ∈ state.published, row ∈ state.entered
  kept : Kept state
  holds : ∀ dispatcher, HoldsRows state dispatcher (state.phase dispatcher).rows
  batches : ∀ dispatcher, BatchSound state (state.phase dispatcher)

theorem HoldsRows.keep {rows : List OutboxRow} (holds : HoldsRows state dispatcher rows)
    (stays : ∀ row ∈ state.outbox, state.lockedBy row.id = some dispatcher -> row ∈ after.outbox)
    (same : ∀ id, after.lockedBy id = some dispatcher <-> state.lockedBy id = some dispatcher) :
    HoldsRows after dispatcher rows where
  locked := by
    intro row member
    have ⟨stored, locked⟩ := holds.locked row member
    exact ⟨stays row stored locked, (same row.id).mpr locked⟩
  only := fun id locked => holds.only id ((same id).mp locked)

variable {phase : DispatchPhase}

theorem BatchSound.keep (sound : BatchSound state phase)
    (entered : ∀ row ∈ state.entered, row ∈ after.entered)
    (published : ∀ row ∈ state.published, row ∈ after.published) : BatchSound after phase := by
  cases phase with
  | idle => trivial
  | fetching scan rows => exact ⟨sound.1, fun row member => entered row (sound.2 row member)⟩
  | publishing handled todo publishedIds =>
    refine ⟨sound.1, fun id member => ?_⟩
    rcases sound.2 id member with ⟨row, inBatch, same, isPublished⟩
    exact ⟨row, inBatch, same, published row isPublished⟩

variable {row : OutboxRow}

theorem eq_of_id (consistent : Consistent state) {other : OutboxRow} (rowIn : row ∈ state.entered)
    (otherIn : other ∈ state.entered) (same : row.id = other.id) : row = other := by
  by_contra different
  have symmetric : Std.Symm fun row other : OutboxRow => row.id ≠ other.id :=
    ⟨fun _ _ apart => Ne.symm apart⟩
  exact consistent.distinct.forall rowIn otherIn different same

structure Advances (state : OutboxState count) (dispatcher : Fin count) (phase : DispatchPhase)
    (after : OutboxState count) : Prop where
  phases : after.phase = update state.phase dispatcher phase
  entered : after.entered = state.entered
  outbox : ∀ row ∈ after.outbox, row ∈ state.outbox
  published : ∀ row ∈ state.published, row ∈ after.published
  stays : ∀ other ≠ dispatcher, ∀ row ∈ state.outbox,
    state.lockedBy row.id = some other -> row ∈ after.outbox
  locks : ∀ other ≠ dispatcher, ∀ id,
    after.lockedBy id = some other <-> state.lockedBy id = some other

theorem Consistent.advance (consistent : Consistent state)
    (advances : Advances state dispatcher phase after)
    (known : ∀ row ∈ after.published, row ∈ after.entered) (kept : Kept after)
    (holds : HoldsRows after dispatcher phase.rows) (sound : BatchSound after phase) :
    Consistent after where
  stored := by
    intro row member
    rw [advances.entered]
    exact consistent.stored row (advances.outbox row member)
  distinct := by
    rw [advances.entered]
    exact consistent.distinct
  known := known
  kept := kept
  holds := by
    intro other
    rw [advances.phases]
    by_cases same : other = dispatcher
    · rw [same, update_self]
      exact holds
    · rw [update_of_ne same]
      exact (consistent.holds other).keep (advances.stays other same) (advances.locks other same)
  batches := by
    intro other
    rw [advances.phases]
    by_cases same : other = dispatcher
    · rw [same, update_self]
      exact sound
    · rw [update_of_ne same]
      exact (consistent.batches other).keep (fun row member => advances.entered.symm ▸ member)
        advances.published

theorem Consistent.enter (consistent : Consistent state)
    (same : phase.rows = (state.phase dispatcher).rows) (sound : BatchSound state phase) :
    Consistent (state.enter dispatcher phase) := by
  have advances : Advances state dispatcher phase (state.enter dispatcher phase) :=
    ⟨rfl, rfl, fun _ member => member, fun _ member => member, fun _ _ _ member _ => member,
      fun _ _ _ => Iff.rfl⟩
  refine consistent.advance advances consistent.known consistent.kept ?_
    (sound.keep (fun _ member => member) (fun _ member => member))
  rw [same]
  exact (consistent.holds dispatcher).keep (fun _ member _ => member) fun _ => Iff.rfl

theorem consistent_enqueue (consistent : Consistent state)
    (fresh : Not (state.entered.any (fun other => other.id = row.id) = true)) :
    Consistent { state with outbox := state.outbox ++ [row], entered := state.entered ++ [row] } where
  stored := by
    intro other member
    rcases List.mem_append.mp member with old | new
    · exact List.mem_append_left _ (consistent.stored other old)
    · exact List.mem_append_right _ new
  distinct := by
    refine List.pairwise_append.mpr ⟨consistent.distinct, List.pairwise_singleton _ _, ?_⟩
    intro other member new isNew same
    rw [List.mem_singleton.mp isNew] at same
    exact fresh (List.any_eq_true.mpr ⟨other, member, decide_eq_true same⟩)
  known := fun other member => List.mem_append_left _ (consistent.known other member)
  kept := by
    intro other member
    rcases List.mem_append.mp member with old | new
    · exact (consistent.kept other old).imp_left (List.mem_append_left _)
    · exact .inl (List.mem_append_right _ new)
  holds := fun other => (consistent.holds other).keep
    (fun _ member _ => List.mem_append_left _ member) fun _ => Iff.rfl
  batches := fun other => (consistent.batches other).keep
    (fun _ member => List.mem_append_left _ member) fun _ member => member

theorem scan_sorted (state : OutboxState count) (rank : UUID -> Nat) :
    (state.scan rank).Pairwise fun row later => row.createdAt ≤ later.createdAt := by
  have total : Std.Total fun row other : OutboxRow => row.createdAt ≤ other.createdAt :=
    ⟨fun row other => Nat.le_total row.createdAt other.createdAt⟩
  have transitive : IsTrans OutboxRow fun row other => row.createdAt ≤ other.createdAt :=
    ⟨fun _ _ _ first second => Nat.le_trans first second⟩
  exact List.pairwise_insertionSort _ _

theorem mem_scan {rank : UUID -> Nat} : row ∈ state.scan rank <-> row ∈ state.outbox :=
  (List.mem_insertionSort _).trans (List.mem_insertionSort _)

variable {rest : List OutboxRow}

theorem consistent_take {batchRows : List OutboxRow} (consistent : Consistent state)
    (at_ : state.phase dispatcher = .fetching (row :: rest) batchRows)
    (free : state.lockedBy row.id = none) (stored : row ∈ state.outbox) :
    Consistent { state.enter dispatcher (.fetching rest (batchRows ++ [row])) with
      lockedBy := update state.lockedBy row.id (some dispatcher) } := by
  have holds := consistent.holds dispatcher
  have sound := consistent.batches dispatcher
  rw [at_] at holds sound
  refine consistent.advance ⟨rfl, rfl, fun _ member => member, fun _ member => member,
    fun _ _ _ member _ => member, ?_⟩ consistent.known consistent.kept ⟨?_, ?_⟩ ⟨?_, ?_⟩
  · intro other apart id
    by_cases here : id = row.id
    · rw [here, free]
      refine iff_of_false (fun locked => apart ?_) (Option.some_ne_none other).symm
      exact (Option.some_inj.mp ((update_self row.id _ state.lockedBy).symm.trans locked)).symm
    · change update state.lockedBy row.id (some dispatcher) id = some other <-> _
      rw [update_of_ne here]
  · intro other member
    rcases List.mem_append.mp member with old | new
    · have ⟨inTable, locked⟩ := holds.locked other old
      refine ⟨inTable, ?_⟩
      have apart : other.id ≠ row.id := fun same => by
        rw [same, free] at locked
        cases locked
      exact (update_of_ne apart _ _).trans locked
    · rw [List.mem_singleton.mp new]
      exact ⟨stored, update_self _ _ _⟩
  · intro id locked
    by_cases here : id = row.id
    · exact ⟨row, List.mem_append_right _ (List.mem_singleton_self row), here.symm⟩
    · rcases holds.only id ((update_of_ne here _ _).symm.trans locked) with ⟨other, member, same⟩
      exact ⟨other, List.mem_append_left _ member, same⟩
  · have sorted := sound.1
    rw [List.append_cons] at sorted
    exact sorted
  · exact fun other member => sound.2 other (List.mem_cons_of_mem _ member)

theorem consistent_publish {handled : List OutboxRow} {ids : List UUID}
    (consistent : Consistent state)
    (at_ : state.phase dispatcher = .publishing handled (row :: rest) ids) :
    Consistent { state.enter dispatcher (.publishing (handled ++ [row]) rest (ids ++ [row.id])) with
      published := state.published ++ [row] } := by
  have holds := consistent.holds dispatcher
  have sound := consistent.batches dispatcher
  rw [at_] at holds sound
  have stored := (holds.locked row (List.mem_append_right _ List.mem_cons_self)).1
  have same : handled ++ row :: rest = (handled ++ [row]) ++ rest := List.append_cons _ _ _
  refine consistent.advance ⟨rfl, rfl, fun _ member => member,
    fun _ member => List.mem_append_left _ member, fun _ _ _ member _ => member, fun _ _ _ => Iff.rfl⟩
    ?_ ?_ ?_ ⟨same ▸ sound.1, ?_⟩
  · intro other member
    rcases List.mem_append.mp member with old | new
    · exact consistent.known other old
    · rw [List.mem_singleton.mp new]
      exact consistent.stored row stored
  · exact fun other member => (consistent.kept other member).imp_right (List.mem_append_left _)
  · have kept : HoldsRows state dispatcher ((handled ++ [row]) ++ rest) := same ▸ holds
    exact kept.keep (fun _ member _ => member) fun _ => Iff.rfl
  · intro id member
    rcases List.mem_append.mp member with old | new
    · rcases sound.2 id old with ⟨other, inBatch, named, isPublished⟩
      exact ⟨other, List.mem_append_left _ inBatch, named, List.mem_append_left _ isPublished⟩
    · exact ⟨row, List.mem_append_right _ (List.mem_singleton_self row), (List.mem_singleton.mp new).symm,
        List.mem_append_right _ (List.mem_singleton_self row)⟩

theorem consistent_finish {deleted : List UUID} (consistent : Consistent state)
    (own : ∀ id ∈ deleted, ∃ row ∈ (state.phase dispatcher).rows,
      row.id = id ∧ row ∈ state.published) : Consistent (state.finish dispatcher deleted) := by
  have holds := consistent.holds dispatcher
  have locks (id : UUID) : (state.finish dispatcher deleted).lockedBy id =
      if state.lockedBy id = some dispatcher then none else state.lockedBy id := rfl
  have advances : Advances state dispatcher .idle (state.finish dispatcher deleted) := by
    refine ⟨rfl, rfl, fun _ member => (List.mem_filter.mp member).1, fun _ member => member, ?_, ?_⟩
    · intro other apart row stored locked
      refine List.mem_filter.mpr ⟨stored, decide_eq_true fun isDeleted => apart ?_⟩
      rcases own row.id isDeleted with ⟨mine, inBatch, same, _⟩
      have held := (holds.locked mine inBatch).2
      rw [same, locked] at held
      exact Option.some_inj.mp held
    · intro other apart id
      rw [locks]
      split
      · rename_i mine
        rw [mine]
        exact iff_of_false (Option.some_ne_none other).symm fun same =>
          apart (Option.some_inj.mp same).symm
      · rfl
  refine consistent.advance advances consistent.known ?_ ⟨(fun row member => nomatch member), ?_⟩ trivial
  · intro row member
    rcases consistent.kept row member with stored | isPublished
    · by_cases isDeleted : row.id ∈ deleted
      · rcases own row.id isDeleted with ⟨mine, _, same, isPublished⟩
        exact .inr (eq_of_id consistent (consistent.known mine isPublished) member same ▸ isPublished)
      · exact .inl (List.mem_filter.mpr ⟨stored, decide_eq_true isDeleted⟩)
    · exact .inr isPublished
  · intro id locked
    rw [locks] at locked
    split at locked
    · cases locked
    · rename_i other
      exact absurd locked other

theorem Consistent.step (batchSize : Nat) (consistent : Consistent state) (input : OutboxInput count) :
    Consistent (state.step batchSize input) := by
  cases input with
  | enqueue row =>
    unfold OutboxState.step
    dsimp only
    split
    case isTrue => exact consistent
    case isFalse fresh => exact consistent_enqueue consistent fresh
  | select dispatcher rank =>
    unfold OutboxState.step
    dsimp only
    split
    case h_1 at_ =>
      refine consistent.enter (congrArg DispatchPhase.rows at_).symm ⟨scan_sorted state rank, ?_⟩
      exact fun row member => consistent.stored row (mem_scan.mp member)
    case h_2 => exact consistent
  | visit dispatcher =>
    unfold OutboxState.step
    dsimp only
    split
    case h_1 scan rows at_ =>
      have sound := consistent.batches dispatcher
      rw [at_] at sound
      have taken : BatchSound state (.publishing [] rows []) :=
        ⟨(List.pairwise_append.mp sound.1).1, fun id member => nomatch member⟩
      split
      case isTrue => exact consistent.enter (congrArg DispatchPhase.rows at_).symm taken
      case isFalse =>
        split
        case h_1 => exact consistent.enter (congrArg DispatchPhase.rows at_).symm taken
        case h_2 row rest =>
          split
          case isTrue free =>
            rcases List.any_eq_true.mp free.2 with ⟨other, stored, named⟩
            have same := eq_of_id consistent (consistent.stored other stored)
              (sound.2 row List.mem_cons_self) (of_decide_eq_true named)
            exact consistent_take consistent at_ free.1 (same ▸ stored)
          case isFalse =>
            refine consistent.enter (congrArg DispatchPhase.rows at_).symm ⟨?_, ?_⟩
            · refine sound.1.sublist ((List.append_sublist_append_left rows).mpr ?_)
              exact List.sublist_cons_self row rest
            · exact fun other member => sound.2 other (List.mem_cons_of_mem _ member)
    case h_2 => exact consistent
  | publish dispatcher succeeds =>
    unfold OutboxState.step
    dsimp only
    split
    case h_1 handled row rest ids at_ =>
      split
      case isTrue => exact consistent_publish consistent at_
      case isFalse =>
        have sound := consistent.batches dispatcher
        rw [at_] at sound
        have same : handled ++ row :: rest = (handled ++ [row]) ++ rest := List.append_cons _ _ _
        refine consistent.enter (same.symm.trans (congrArg DispatchPhase.rows at_).symm)
          ⟨same ▸ sound.1, fun id member => ?_⟩
        rcases sound.2 id member with ⟨other, inBatch, named, isPublished⟩
        exact ⟨other, List.mem_append_left _ inBatch, named, isPublished⟩
    case h_2 => exact consistent
  | commit dispatcher =>
    unfold OutboxState.step
    dsimp only
    split
    case h_1 handled ids at_ =>
      have sound := consistent.batches dispatcher
      rw [at_] at sound
      refine consistent_finish consistent fun id member => ?_
      rw [at_]
      rcases sound.2 id member with ⟨other, inBatch, named, isPublished⟩
      exact ⟨other, List.mem_append_left _ inBatch, named, isPublished⟩
    case h_2 => exact consistent
  | abort dispatcher => exact consistent_finish consistent fun id member => nomatch member

theorem consistent_initial (count batchSize : Nat) : Consistent (outboxMachine count batchSize).initial where
  stored := fun _ member => nomatch member
  distinct := List.Pairwise.nil
  known := fun _ member => nomatch member
  kept := fun _ member => nomatch member
  holds := fun _ => ⟨(fun _ member => nomatch member), (fun _ locked => nomatch locked)⟩
  batches := fun _ => trivial

/-! ## The order of the envelopes -/

def ComesAfter (row earlier : OutboxRow) : Prop :=
  earlier.channelId = row.channelId ∧ earlier.createdAt < row.createdAt

/-- Before a row is published for the first time, the earlier rows of its channel are. -/
def InOrder (state : OutboxState count) : Prop :=
  ∀ before row rest, state.published = before ++ row :: rest ->
    ∀ earlier ∈ state.entered, ComesAfter row earlier -> earlier ∈ before

/-- No row is published past an earlier one of its channel, which failed before it
in its batch or is in no batch of this dispatcher, and none comes into the table
when a later one is published already. -/
def OvertakesNone (state : OutboxState count) : OutboxInput count -> Prop
  | .enqueue row => Not (state.entered.any (fun other => other.id = row.id) = true) ->
      ∀ later ∈ state.published, Not (ComesAfter later row)
  | .publish dispatcher true =>
    match state.phase dispatcher with
    | .publishing handled (row :: rest) _ =>
      (∀ earlier ∈ handled, ComesAfter row earlier -> earlier ∈ state.published) ∧
      ∀ earlier ∈ state.outbox, earlier ∉ handled ++ row :: rest ->
        ComesAfter row earlier -> earlier ∈ state.published
    | _ => True
  | _ => True

theorem inOrder_append (row : OutboxRow) (published : after.published = state.published ++ [row])
    (entered : after.entered = state.entered) (inOrder : InOrder state) :
    InOrder after <-> ∀ earlier ∈ state.entered, ComesAfter row earlier ->
      earlier ∈ state.published := by
  unfold InOrder
  rw [published, entered]
  constructor
  · exact fun every => every state.published row [] rfl
  · intro last
    refine forall_split_append inOrder fun before other rest split => ?_
    cases before with
    | nil =>
      cases split
      rw [List.append_nil]
      exact last
    | cons first others => cases others <;> cases split

theorem inOrder_enqueue (consistent : Consistent state) (inOrder : InOrder state)
    (fresh : Not (state.entered.any (fun other => other.id = row.id) = true))
    (published : after.published = state.published) (entered : after.entered = state.entered ++ [row]) :
    InOrder after <-> ∀ later ∈ state.published, Not (ComesAfter later row) := by
  unfold InOrder
  rw [published, entered]
  constructor
  · intro every later member follows
    rcases List.append_of_mem member with ⟨before, rest, split⟩
    have inBefore := every before later rest split row
      (List.mem_append_right _ (List.mem_singleton_self row)) follows
    have isPublished : row ∈ state.published := split ▸ List.mem_append_left _ inBefore
    exact fresh (List.any_eq_true.mpr ⟨row, consistent.known row isPublished, decide_eq_true rfl⟩)
  · intro none_ before later rest split earlier member follows
    rcases List.mem_append.mp member with old | new
    · exact inOrder before later rest split earlier old follows
    · rw [List.mem_singleton.mp new] at follows
      exact absurd follows (none_ later (split ▸ List.mem_append_right _ List.mem_cons_self))

theorem not_comesAfter_of_todo {handled : List OutboxRow} {other : OutboxRow}
    (sorted : (handled ++ row :: rest).Pairwise fun row later => row.createdAt ≤ later.createdAt)
    (member : other ∈ row :: rest) : Not (ComesAfter row other) := by
  rintro ⟨_, earlier⟩
  rcases List.mem_cons.mp member with rfl | later
  · exact Nat.lt_irrefl _ earlier
  · have ordered := (List.pairwise_cons.mp (List.pairwise_append.mp sorted).2.1).1 other later
    exact Nat.not_lt.mpr ordered earlier

theorem inOrder_step (batchSize : Nat) (consistent : Consistent state) (inOrder : InOrder state)
    (input : OutboxInput count) :
    InOrder (state.step batchSize input) <-> OvertakesNone state input := by
  cases input with
  | enqueue row =>
    unfold OutboxState.step OvertakesNone
    dsimp only
    split
    case isTrue used => exact iff_of_true inOrder fun fresh => absurd used fresh
    case isFalse fresh =>
      refine Iff.trans ?_ (imp_iff_right fresh).symm
      exact inOrder_enqueue consistent inOrder fresh rfl rfl
  | publish dispatcher succeeds =>
    unfold OutboxState.step
    dsimp only
    cases succeeds with
    | false =>
      refine iff_of_true ?_ trivial
      split <;> exact inOrder
    | true =>
      unfold OvertakesNone
      dsimp only
      cases at_ : state.phase dispatcher with
      | idle => exact iff_of_true inOrder trivial
      | fetching scan rows => exact iff_of_true inOrder trivial
      | publishing handled todo ids =>
        cases todo with
        | nil => exact iff_of_true inOrder trivial
        | cons row rest =>
          have sound := consistent.batches dispatcher
          have holds := consistent.holds dispatcher
          rw [at_] at sound holds
          dsimp only
          rw [if_pos rfl]
          refine (inOrder_append row ?_ ?_ inOrder).trans ⟨?_, ?_⟩
          · rfl
          · rfl
          · intro every
            refine ⟨fun earlier member => ?_, fun earlier stored _ => ?_⟩
            · have stored := (holds.locked earlier (List.mem_append_left _ member)).1
              exact every earlier (consistent.stored earlier stored)
            · exact every earlier (consistent.stored earlier stored)
          · rintro ⟨inBatch, elsewhere⟩ earlier member follows
            rcases consistent.kept earlier member with stored | isPublished
            · by_cases mine : earlier ∈ handled ++ row :: rest
              · rcases List.mem_append.mp mine with before | todo
                · exact inBatch earlier before follows
                · exact absurd follows (not_comesAfter_of_todo sound.1 todo)
              · exact elsewhere earlier stored mine follows
            · exact isPublished
  | select dispatcher rank =>
    refine iff_of_true ?_ trivial
    unfold OutboxState.step
    dsimp only
    split <;> exact inOrder
  | visit dispatcher =>
    refine iff_of_true ?_ trivial
    unfold OutboxState.step
    dsimp only
    split
    · split
      · exact inOrder
      · split
        · exact inOrder
        · split <;> exact inOrder
    · exact inOrder
  | commit dispatcher =>
    refine iff_of_true ?_ trivial
    unfold OutboxState.step
    dsimp only
    split <;> exact inOrder
  | abort dispatcher => exact iff_of_true inOrder trivial

/-! ## Rows that stay -/

theorem lockedBy_step (batchSize : Nat) (input : OutboxInput count) {id : UUID}
    (locked : state.lockedBy id = some dispatcher) :
    (state.step batchSize input).lockedBy id = some dispatcher ∨
      (state.step batchSize input).lockedBy id = none := by
  have finished (other : Fin count) (deleted : List UUID) :
      (state.finish other deleted).lockedBy id = some dispatcher ∨
        (state.finish other deleted).lockedBy id = none := by
    change (if state.lockedBy id = some other then none else state.lockedBy id) = _ ∨
      (if state.lockedBy id = some other then none else state.lockedBy id) = _
    split
    · exact .inr rfl
    · exact .inl locked
  cases input with
  | abort other => exact finished other []
  | commit other =>
    unfold OutboxState.step
    dsimp only
    split
    · exact finished other _
    · exact .inl locked
  | visit other =>
    unfold OutboxState.step
    dsimp only
    split
    case h_2 => exact .inl locked
    case h_1 scan rows at_ =>
      split
      case isTrue => exact .inl locked
      case isFalse =>
        split
        case h_1 => exact .inl locked
        case h_2 row rest =>
          split
          case isTrue free =>
            have apart : id ≠ row.id := fun same => by
              rw [same, free.1] at locked
              cases locked
            exact .inl ((update_of_ne apart _ _).trans locked)
          case isFalse => exact .inl locked
  | enqueue row | select other rank =>
    unfold OutboxState.step
    dsimp only
    split <;> exact .inl locked
  | publish other succeeds =>
    unfold OutboxState.step
    dsimp only
    split
    · split <;> exact .inl locked
    · exact .inl locked

theorem outbox_step (batchSize : Nat) (state : OutboxState count) (input : OutboxInput count) :
    (∃ row, input = .enqueue row ∧ (state.step batchSize input).outbox = state.outbox ++ [row]) ∨
    (state.step batchSize input).outbox.Sublist state.outbox := by
  cases input with
  | enqueue row =>
    unfold OutboxState.step
    dsimp only
    split
    · exact .inr (List.Sublist.refl _)
    · exact .inl ⟨row, rfl, rfl⟩
  | abort dispatcher => exact .inr List.filter_sublist
  | commit dispatcher =>
    unfold OutboxState.step
    dsimp only
    split
    · exact .inr List.filter_sublist
    · exact .inr (List.Sublist.refl _)
  | select dispatcher rank =>
    unfold OutboxState.step
    dsimp only
    split <;> exact .inr (List.Sublist.refl _)
  | publish dispatcher succeeds =>
    unfold OutboxState.step
    dsimp only
    split
    · split <;> exact .inr (List.Sublist.refl _)
    · exact .inr (List.Sublist.refl _)
  | visit dispatcher =>
    unfold OutboxState.step
    dsimp only
    split
    · split
      · exact .inr (List.Sublist.refl _)
      · split
        · exact .inr (List.Sublist.refl _)
        · split <;> exact .inr (List.Sublist.refl _)
    · exact .inr (List.Sublist.refl _)

def StopsBefore (batchSize : Nat) (row : OutboxRow) : DispatchPhase -> Prop
  | .idle => True
  | .fetching scan _ => row ∈ scan
  | .publishing handled todo _ => (handled ++ todo).length = batchSize ∧
      ∀ other ∈ handled ++ todo, other.createdAt ≤ row.createdAt

variable {batchSize : Nat}

theorem stopsBefore_step (consistent : Consistent state)
    (input : OutboxInput count) (stored : row ∈ state.outbox) (free : state.lockedBy row.id = none)
    (stillFree : (state.step batchSize input).lockedBy row.id = none)
    (stops : StopsBefore batchSize row (state.phase dispatcher)) :
    StopsBefore batchSize row ((state.step batchSize input).phase dispatcher) := by
  have entering (other : Fin count) (phase : DispatchPhase)
      (mine : dispatcher = other -> StopsBefore batchSize row phase) :
      StopsBefore batchSize row (update state.phase other phase dispatcher) := by
    by_cases same : dispatcher = other
    · rw [same, update_self]
      exact mine same
    · rw [update_of_ne same]
      exact stops
  cases input with
  | enqueue other =>
    unfold OutboxState.step
    dsimp only
    split <;> exact stops
  | select other rank =>
    unfold OutboxState.step
    dsimp only
    split
    · exact entering other _ fun _ => mem_scan.mpr stored
    · exact stops
  | visit other =>
    unfold OutboxState.step at stillFree ⊢
    dsimp only at stillFree ⊢
    split
    case h_2 => exact stops
    case h_1 scan rows at_ =>
      have sound := consistent.batches other
      rw [at_] at sound stillFree
      dsimp only at stillFree
      split
      case isTrue full =>
        refine entering other _ fun same => ?_
        rw [same, at_] at stops
        refine ⟨full, fun earlier member => ?_⟩
        exact (List.pairwise_append.mp sound.1).2.2 earlier member row stops
      case isFalse notFull =>
        rw [if_neg notFull] at stillFree
        split
        case h_1 =>
          refine entering other _ fun same => ?_
          rw [same, at_] at stops
          cases stops
        case h_2 next rest =>
          dsimp only at stillFree
          have apart : dispatcher = other -> row ∈ rest := by
            intro same
            rw [same, at_] at stops
            rcases List.mem_cons.mp stops with isNext | later
            · have open_ : state.lockedBy next.id = none ∧
                  state.outbox.any (fun other => decide (other.id = next.id)) = true :=
                ⟨isNext ▸ free, List.any_eq_true.mpr ⟨row, stored, decide_eq_true (congrArg _ isNext)⟩⟩
              rw [if_pos open_, isNext] at stillFree
              cases (update_self next.id _ state.lockedBy).symm.trans stillFree
            · exact later
          split
          · exact entering other _ apart
          · exact entering other _ apart
  | publish other succeeds =>
    unfold OutboxState.step
    dsimp only
    split
    case h_2 => exact stops
    case h_1 handled next rest ids at_ =>
      have whole : handled ++ next :: rest = (handled ++ [next]) ++ rest := List.append_cons _ _ _
      have kept (ids : List UUID) : dispatcher = other ->
          StopsBefore batchSize row (.publishing (handled ++ [next]) rest ids) := by
        intro same
        rw [same, at_] at stops
        have stops : (handled ++ next :: rest).length = batchSize ∧
            ∀ other ∈ handled ++ next :: rest, other.createdAt ≤ row.createdAt := stops
        rw [whole] at stops
        exact stops
      split
      · exact entering other _ (kept _)
      · exact entering other _ (kept _)
  | commit other =>
    unfold OutboxState.step
    dsimp only
    split
    · exact entering other .idle fun _ => trivial
    · exact stops
  | abort other => exact entering other .idle fun _ => trivial

/-- A batch commits which published something or had room for more rows. -/
def Productive (batchSize : Nat) (state : OutboxState count) : OutboxInput count -> Prop
  | .commit dispatcher =>
    match state.phase dispatcher with
    | .publishing handled [] publishedIds => publishedIds ≠ [] ∨ handled.length < batchSize
    | _ => False
  | _ => False

/-- How many rows may come before the row in a batch. -/
def ahead (row : OutboxRow) (state : OutboxState count) : Nat :=
  state.outbox.countP fun other => decide (other.createdAt ≤ row.createdAt)

theorem ahead_step {input : OutboxInput count}
    (later : ∀ new, input = .enqueue new -> row.createdAt < new.createdAt) :
    ahead row (state.step batchSize input) ≤ ahead row state := by
  unfold ahead
  rcases outbox_step batchSize state input with ⟨new, isNew, grown⟩ | shrunk
  · rw [grown, List.countP_append, List.countP_singleton,
      if_neg (mt of_decide_eq_true (Nat.not_le.mpr (later new isNew))), Nat.add_zero]
  · exact shrunk.countP_le

theorem ahead_productive {input : OutboxInput count}
    (consistent : Consistent state) (productive : Productive batchSize state input)
    (stops : ∀ dispatcher, StopsBefore batchSize row (state.phase dispatcher)) :
    ahead row (state.step batchSize input) < ahead row state := by
  cases input with
  | commit dispatcher =>
    unfold Productive at productive
    dsimp only at productive
    have mine := stops dispatcher
    have sound := consistent.batches dispatcher
    have holds := consistent.holds dispatcher
    unfold OutboxState.step
    dsimp only
    split at productive
    case h_2 => cases productive
    case h_1 handled ids at_ =>
      rw [at_] at mine sound holds
      have size : handled.length = batchSize := (congrArg List.length (List.append_nil _)).symm.trans mine.1
      have some_ := productive.resolve_right (Nat.not_lt.mpr size.ge)
      rcases List.exists_mem_of_ne_nil ids some_ with ⟨id, member⟩
      rcases sound.2 id member with ⟨gone, inBatch, named, _⟩
      have before := mine.2 gone (List.mem_append_left _ inBatch)
      have stored := (holds.locked gone (List.mem_append_left _ inBatch)).1
      have parts := List.countP_eq_countP_filter_add state.outbox
        (fun other => decide (other.createdAt ≤ row.createdAt)) fun row => decide (row.id ∉ ids)
      have fewer : 0 < (state.outbox.filter fun row => !decide (row.id ∉ ids)).countP
          fun other => decide (other.createdAt ≤ row.createdAt) := by
        refine List.countP_pos_iff.mpr ⟨gone, List.mem_filter.mpr ⟨stored, ?_⟩, decide_eq_true before⟩
        rw [decide_eq_false (not_not.mpr (named ▸ member))]
        rfl
      unfold ahead
      rw [parts]
      exact Nat.lt_add_of_pos_right fewer
  | _ => cases productive

section Fairness

/-- The state at a moment of the schedule. -/
abbrev outboxAt (batchSize : Nat) (schedule : Nat -> OutboxInput count) (time : Nat) : OutboxState count :=
  (outboxMachine count batchSize).along schedule time

/-- Every batch comes to an end, and the transactions which write rows do not lag
behind for ever. -/
structure Fair (batchSize : Nat) (schedule : Nat -> OutboxInput count) : Prop where
  ends : ∀ dispatcher, Recurs fun time => (outboxAt batchSize schedule time).phase dispatcher = .idle
  moves : ∀ bound, ∃ start, ∀ time, start ≤ time ->
    ∀ row, schedule time = .enqueue row -> bound < row.createdAt

def SelectsRow (batchSize : Nat) (schedule : Nat -> OutboxInput count) (row : OutboxRow) (time : Nat) :
    Prop :=
  (outboxAt batchSize schedule time).lockedBy row.id = none ∧
    (outboxAt batchSize schedule (time + 1)).lockedBy row.id ≠ none

variable {batchSize : Nat} {schedule : Nat -> OutboxInput count} {row : OutboxRow} {start : Nat}

variable (batchSize schedule) in
theorem consistent_at (time : Nat) : Consistent (outboxAt batchSize schedule time) :=
  Machine.along_invariant (consistent_initial count batchSize)
    (fun _ input consistent => consistent.step batchSize input) time

theorem exists_free (fair : Fair batchSize schedule)
    (never : ∀ time, start ≤ time -> Not (SelectsRow batchSize schedule row time)) :
    ∃ first, start ≤ first ∧
      ∀ time, first ≤ time -> (outboxAt batchSize schedule time).lockedBy row.id = none := by
  have once : ∃ first, start ≤ first ∧
      (outboxAt batchSize schedule first).lockedBy row.id = none := by
    by_contra always
    have locked (time : Nat) (later : start ≤ time) :
        (outboxAt batchSize schedule time).lockedBy row.id ≠ none :=
      fun free => always ⟨time, later, free⟩
    rcases Option.ne_none_iff_exists'.mp (locked start (Nat.le_refl start)) with ⟨holder, held⟩
    have still (time : Nat) (later : start ≤ time) :
        (outboxAt batchSize schedule time).lockedBy row.id = some holder := by
      induction time, later using Nat.le_induction with
      | base => exact held
      | succ time later ih =>
        exact (lockedBy_step batchSize (schedule time) ih).resolve_right
          (locked (time + 1) (later.trans (Nat.le_succ time)))
    rcases fair.ends holder start with ⟨time, later, idle⟩
    have holds := (consistent_at batchSize schedule time).holds holder
    rw [idle] at holds
    rcases holds.only row.id (still time later) with ⟨_, none_, _⟩
    cases none_
  rcases once with ⟨first, later, free⟩
  refine ⟨first, later, fun time since => ?_⟩
  induction time, since using Nat.le_induction with
  | base => exact free
  | succ time since ih =>
    by_contra locked
    exact never time (later.trans since) ⟨ih, locked⟩

theorem exists_stopsBefore (fair : Fair batchSize schedule)
    (stays : ∀ time, start ≤ time -> row ∈ (outboxAt batchSize schedule time).outbox)
    (free : ∀ time, start ≤ time -> (outboxAt batchSize schedule time).lockedBy row.id = none) :
    ∃ last, start ≤ last ∧ ∀ time, last ≤ time -> ∀ dispatcher,
      StopsBefore batchSize row ((outboxAt batchSize schedule time).phase dispatcher) := by
  rcases exists_common (fun dispatcher => fair.ends dispatcher start) with ⟨last, after_, each⟩
  refine ⟨last, after_, fun time later dispatcher => ?_⟩
  rcases each dispatcher with ⟨ended, since, before, idle⟩
  have order : ended ≤ time := before.trans later
  clear later
  induction time, order using Nat.le_induction with
  | base =>
    rw [idle]
    trivial
  | succ time order ih =>
    have here := since.trans order
    exact stopsBefore_step (consistent_at batchSize schedule time) (schedule time) (stays time here)
      (free time here) (free (time + 1) (here.trans (Nat.le_succ time))) ih

theorem selected_again (fair : Fair batchSize schedule)
    (productive : Recurs fun time => Productive batchSize (outboxAt batchSize schedule time) (schedule time))
    (stays : ∀ time, start ≤ time -> row ∈ (outboxAt batchSize schedule time).outbox) :
    ∃ time, start ≤ time ∧ SelectsRow batchSize schedule row time := by
  by_contra never
  have unselected (time : Nat) (later : start ≤ time) : Not (SelectsRow batchSize schedule row time) :=
    fun selected => never ⟨time, later, selected⟩
  rcases exists_free fair unselected with ⟨first, fromStart, free⟩
  rcases exists_stopsBefore fair (fun time later => stays time (fromStart.trans later)) free with
    ⟨last, fromFirst, stops⟩
  rcases fair.moves row.createdAt with ⟨moved, later⟩
  let waiting := fun time => ahead row (outboxAt batchSize schedule time)
  have shrinks (time : Nat) (since : max last moved ≤ time) : waiting (time + 1) ≤ waiting time :=
    ahead_step fun new isNew => later time ((Nat.le_max_right last moved).trans since) new isNew
  refine not_recurs_fall shrinks fun time => ?_
  rcases productive (max time (max last moved)) with ⟨end_, since, isProductive⟩
  have settled : max last moved ≤ end_ := (Nat.le_max_right _ _).trans since
  refine ⟨end_, (Nat.le_max_left _ _).trans since, settled, ?_⟩
  exact ahead_productive (consistent_at batchSize schedule end_) isProductive
    (stops end_ ((Nat.le_max_left _ _).trans settled))

theorem inOrder_iff : (∀ time, InOrder (outboxAt batchSize schedule time)) <->
    ∀ time, OvertakesNone (outboxAt batchSize schedule time) (schedule time) := by
  refine Machine.along_iff Consistent ?_ (consistent_initial count batchSize)
    (fun _ input consistent => consistent.step batchSize input)
    (fun _ input consistent inOrder => inOrder_step batchSize consistent inOrder input)
  intro before row rest split
  cases before <;> cases split

/-- What the dispatchers are for: rows leave the table after their envelopes, the
envelopes of a channel keep their order, and rows that stay are selected again. -/
structure Dispatched (batchSize : Nat) (schedule : Nat -> OutboxInput count) : Prop where
  kept : ∀ time, Kept (outboxAt batchSize schedule time)
  ordered : ∀ time, InOrder (outboxAt batchSize schedule time)
  selected : ∀ row start,
    (∀ time, start ≤ time -> row ∈ (outboxAt batchSize schedule time).outbox) ->
    ∃ time, start ≤ time ∧ SelectsRow batchSize schedule row time

/-- In a fair schedule with productive batches, the dispatchers do what they are
for exactly if no row is overtaken. -/
theorem dispatched_exactly (fair : Fair batchSize schedule) (productive :
      Recurs fun time => Productive batchSize (outboxAt batchSize schedule time) (schedule time)) :
    Dispatched batchSize schedule <->
      ∀ time, OvertakesNone (outboxAt batchSize schedule time) (schedule time) := by
  rw [← inOrder_iff]
  constructor
  · exact Dispatched.ordered
  · intro ordered
    exact ⟨fun time => (consistent_at batchSize schedule time).kept, ordered,
      fun row start stays => selected_again fair productive stays⟩

end Fairness

def outboxRow (number : Nat) (createdAt : Timestamp) : OutboxRow where
  id := BitVec.ofNat 128 number
  workspaceId := 10
  channelId := 5
  eventType := "message.created"
  payload := .null
  expiresAt := createdAt + 60 * 1000000
  createdAt := createdAt

/-- Two rows of a channel are published, and then the dispatcher finds nothing in each round. -/
def keepsUp : Nat -> OutboxInput 1
  | 0 => .enqueue (outboxRow 1 100)
  | 1 => .enqueue (outboxRow 2 200)
  | 2 => .select 0 fun _ => 0
  | 3 => .visit 0
  | 4 => .visit 0
  | 5 => .visit 0
  | 6 => .publish 0 true
  | 7 => .publish 0 true
  | 8 => .commit 0
  | time + 9 =>
    match time % 3 with
    | 0 => .select 0 fun _ => 0
    | 1 => .visit 0
    | _ => .commit 0

theorem keepsUp_round (round : Nat) : (keepsUp (3 * round + 9) = .select 0 fun _ => 0) ∧
    keepsUp (3 * round + 10) = .visit 0 ∧ keepsUp (3 * round + 11) = .commit 0 := by
  have select : (3 * round) % 3 = 0 := Nat.mul_mod_right 3 round
  have visit : (3 * round + 1) % 3 = 1 := Nat.mul_add_mod 3 round 1
  have commit : (3 * round + 2) % 3 = 2 := Nat.mul_add_mod 3 round 2
  unfold keepsUp
  dsimp only
  rw [select, visit, commit]
  exact ⟨rfl, rfl, rfl⟩

def Rests (state : OutboxState 1) (phase : DispatchPhase) : Prop :=
  state.phase 0 = phase ∧ state.outbox = []

theorem rests_round {state : OutboxState 1} (rests : Rests state .idle) :
    Rests (state.step 100 (.select 0 fun _ => 0)) (.fetching [] []) ∧
    Rests ((state.step 100 (.select 0 fun _ => 0)).step 100 (.visit 0)) (.publishing [] [] []) ∧
    Rests (((state.step 100 (.select 0 fun _ => 0)).step 100 (.visit 0)).step 100 (.commit 0)) .idle := by
  rcases state with ⟨outbox, lockedBy, phase, published, entered⟩
  rcases rests with ⟨idle, empty⟩
  dsimp only at idle empty
  subst empty
  have selected : OutboxState.step ⟨[], lockedBy, phase, published, entered⟩ 100 (.select 0 fun _ => 0) =
      ⟨[], lockedBy, update phase 0 (.fetching [] []), published, entered⟩ := by
    unfold OutboxState.step
    dsimp only
    rw [idle]
    rfl
  rw [selected]
  exact ⟨⟨rfl, rfl⟩, ⟨rfl, rfl⟩, ⟨rfl, rfl⟩⟩

theorem rests_keepsUp (round : Nat) : Rests (outboxAt 100 keepsUp (3 * round + 9)) .idle := by
  induction round with
  | zero => exact ⟨rfl, rfl⟩
  | succ round ih =>
    have ⟨select, visit, commit⟩ := keepsUp_round round
    have next : outboxAt 100 keepsUp (3 * (round + 1) + 9) =
        (((outboxAt 100 keepsUp (3 * round + 9)).step 100 (keepsUp (3 * round + 9))).step 100
          (keepsUp (3 * round + 10))).step 100 (keepsUp (3 * round + 11)) := rfl
    rw [next, select, visit, commit]
    exact (rests_round ih).2.2

theorem keepsUp_settled {time : Nat} (later : 9 ≤ time) : (keepsUp time = .select 0 fun _ => 0) ∨
    keepsUp time = .visit 0 ∨ keepsUp time = .commit 0 := by
  rcases Nat.exists_eq_add_of_le' later with ⟨rest, rfl⟩
  have ⟨select, visit, commit⟩ := keepsUp_round (rest / 3)
  have parts := Nat.div_add_mod rest 3
  have small := Nat.mod_lt rest (Nat.succ_pos 2)
  rcases (by omega : rest = 3 * (rest / 3) ∨ rest = 3 * (rest / 3) + 1 ∨ rest = 3 * (rest / 3) + 2) with
    same | same | same
  · exact .inl (same ▸ select)
  · exact .inr (.inl (same ▸ visit))
  · exact .inr (.inr (same ▸ commit))

theorem dispatched_keepsUp : Dispatched 100 keepsUp := by
  refine (dispatched_exactly ⟨?_, ?_⟩ ?_).mpr ?_
  · intro dispatcher time
    rw [Subsingleton.elim dispatcher 0]
    exact ⟨3 * time + 9, by omega, (rests_keepsUp time).1⟩
  · refine fun bound => ⟨9, fun time later row isEnqueue => ?_⟩
    rcases keepsUp_settled later with same | same | same <;> cases same.symm.trans isEnqueue
  · intro time
    refine ⟨3 * time + 11, by omega, ?_⟩
    have ⟨select, visit, commit⟩ := keepsUp_round time
    have rests := (rests_round (rests_keepsUp time)).2.1
    rw [← select, ← visit] at rests
    have phase : (outboxAt 100 keepsUp (3 * time + 11)).phase 0 = .publishing [] [] [] := rests.1
    dsimp only
    rw [commit]
    unfold Productive
    dsimp only
    rw [phase]
    exact .inr (by decide)
  · intro time
    rcases Nat.lt_or_ge time 9 with early | later
    · match time, early with
      | 0, _ => exact fun _ _ none_ => nomatch none_
      | 1, _ => exact fun _ _ none_ => nomatch none_
      | 2, _ => trivial
      | 3, _ => trivial
      | 4, _ => trivial
      | 5, _ => trivial
      | 6, _ =>
        refine ⟨(fun _ none_ => nomatch none_), fun earlier stored apart => ?_⟩
        exact absurd stored apart
      | 7, _ =>
        refine ⟨fun _ handled _ => handled, fun earlier stored apart => ?_⟩
        exact absurd stored apart
      | 8, _ => trivial
    · rcases keepsUp_settled later with same | same | same <;> rw [same] <;> trivial

/-- Redis fails on the first row of a batch and takes the second. -/
def failsOnce : Nat -> OutboxInput 1 :=
  fun time => [.enqueue (outboxRow 1 100), .enqueue (outboxRow 2 200), .select 0 fun _ => 0, .visit 0,
    .visit 0, .visit 0, .publish 0 false, .publish 0 true].getD time (.abort 0)

theorem overtaken_failsOnce : Not (Dispatched 100 failsOnce) := by
  intro dispatched
  have member : outboxRow 1 100 ∈ (outboxAt 100 failsOnce 8).entered := List.mem_cons_self
  have none_ := dispatched.ordered 8 [] (outboxRow 2 200) [] rfl (outboxRow 1 100) member ⟨rfl, by decide⟩
  cases none_

/-- A row is in one batch at most, it stays in the table as long as its batch holds it, and no row is
lost before it was published. -/
structure Separate (state : OutboxState count) : Prop where
  alone : ∀ first second row, row ∈ (state.phase first).rows -> row ∈ (state.phase second).rows ->
    first = second
  stays : ∀ dispatcher, ∀ row ∈ (state.phase dispatcher).rows, row ∈ state.outbox
  kept : Kept state

theorem separate_always (batchSize : Nat) (schedule : Nat -> OutboxInput count) (time : Nat) :
    Separate (outboxAt batchSize schedule time) := by
  have consistent := consistent_at batchSize schedule time
  refine ⟨fun first second row here there => ?_, fun dispatcher row member => ?_, consistent.kept⟩
  · have held := ((consistent.holds first).locked row here).2
    rw [((consistent.holds second).locked row there).2] at held
    exact (Option.some_inj.mp held).symm
  · exact ((consistent.holds dispatcher).locked row member).1

end Messenger
end BreadMind
