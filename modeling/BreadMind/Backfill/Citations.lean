import BreadMind.Backfill.Accounting

namespace BreadMind
namespace Backfill

open Execution
open Execution.Program

/-!
# The citations of what is stored

The row of an item and its citation are two statements, each of them committed
by itself.  The second is made only when the first has inserted the row, so a
citation which has failed once is never made: the next run finds the row and
counts the item as one that is there already.

Over a sequence of runs, with whatever failures, the items which are counted
have their citations exactly if no item whose citation failed is found again.
-/

variable {Cursor : Type}

/-- The two tables which one run leaves to the next. -/
structure Tables where
  knowledge : List KnowledgeRow
  sources : List SourceRow

namespace Tables

variable (tables : Tables) (orgId : UUID) (item : BackfillItem)

def holds : Bool :=
  tables.knowledge.any fun row => row.isFor orgId item

def CitedAt (index : Nat) : Prop :=
  ∃ source ∈ tables.sources, source.knowledge = index

instance (tables : Tables) (index : Nat) : Decidable (tables.CitedAt index) :=
  inferInstanceAs (Decidable (∃ source ∈ tables.sources, _))

/-- A row of the item has no citation. -/
def Stranded : Prop :=
  ∃ entry ∈ tables.knowledge.zipIdx, entry.1.isFor orgId item = true ∧
    Not (tables.CitedAt entry.2)

instance (tables : Tables) (orgId : UUID) (item : BackfillItem) :
    Decidable (tables.Stranded orgId item) :=
  inferInstanceAs (Decidable (∃ entry ∈ tables.knowledge.zipIdx, _))

def Cited : Prop :=
  tables.holds orgId item = true ∧ Not (tables.Stranded orgId item)

instance (tables : Tables) (orgId : UUID) (item : BackfillItem) :
    Decidable (tables.Cited orgId item) :=
  inferInstanceAs (Decidable (_ ∧ _))

/-- The foreign key of every citation is that of a row. -/
def Referring : Prop :=
  ∀ source ∈ tables.sources, source.knowledge < tables.knowledge.length

def addRow (row : KnowledgeRow) : Tables :=
  { tables with knowledge := tables.knowledge ++ [row] }

def addSource (index : Nat) (item : BackfillItem) : Tables :=
  { tables with sources := tables.sources ++ [
      { knowledge := index
        sourceType := item.sourceKind
        sourceUri := item.sourceUri
        sourceRef := item.sourceNativeId }] }

def insert (cite : Option Thrown) (row : KnowledgeRow) : Tables × Nat :=
  if tables.holds orgId item then (tables, 1)
  else match cite with
    | some _ => (tables.addRow row, 0)
    | none => ((tables.addRow row).addSource tables.knowledge.length item, 1)

def insertIf (visit : Visit) : Option KnowledgeRow -> Tables × Nat
  | some row => tables.insert orgId visit.item visit.answers.cite row
  | none => (tables, 0)

end Tables

def RunState.tables (state : RunState Cursor) : Tables where
  knowledge := state.knowledge
  sources := state.sources

def JobProgress.ended (progress : JobProgress) : Nat :=
  progress.stored + progress.skippedExisting

/-- The row which a visit gets as far as inserting, if it does. -/
def inserting (job : Job Cursor) (state : RunState Cursor) (visit : Visit) : Option KnowledgeRow :=
  match visit.answers.filter, visit.answers.redact, visit.answers.embed, visit.answers.insert with
  | .ok .keep, .ok body, .ok embedding, none =>
    if job.dryRun || decide (overBudget job state visit) then none
    else some (knowledgeRow job.orgId visit.item body embedding)
  | _, _, _, _ => none

def ledgerAfter (job : Job Cursor) (state : RunState Cursor) (visit : Visit) : Tables × Nat :=
  state.tables.insertIf job.orgId visit (inserting job state visit)

structure BackfillRun (Cursor : Type) where
  settings : Settings
  around : Surroundings
  job : Job Cursor

def BackfillRun.visits (one : BackfillRun Cursor) (tables : Tables) : List (Made Cursor) :=
  madeVisits one.settings one.around one.job tables.knowledge tables.sources

def BackfillRun.leaves (one : BackfillRun Cursor) (tables : Tables) : Tables :=
  (ran one.settings one.around one.job tables.knowledge tables.sources).2.tables

structure RunVisit (Cursor : Type) where
  job : Job Cursor
  made : Made Cursor

namespace RunVisit

variable (one : RunVisit Cursor)

def IsCounted : Prop :=
  one.made.before.progress.ended < one.made.after.progress.ended

instance (one : RunVisit Cursor) : Decidable one.IsCounted :=
  inferInstanceAs (Decidable (_ < _))

def finds (one : RunVisit Cursor) : Bool :=
  (inserting one.job one.made.before one.made.visit).isSome &&
    one.made.before.tables.holds one.job.orgId one.made.visit.item

def strands : Bool :=
  (inserting one.job one.made.before one.made.visit).isSome &&
    (!one.made.before.tables.holds one.job.orgId one.made.visit.item &&
      one.made.visit.answers.cite.isSome)

def SameItem (other : RunVisit Cursor) : Prop :=
  one.job.orgId = other.job.orgId ∧
    one.made.visit.item.sourceKind = other.made.visit.item.sourceKind ∧
    one.made.visit.item.sourceNativeId = other.made.visit.item.sourceNativeId

instance (one other : RunVisit Cursor) : Decidable (one.SameItem other) :=
  inferInstanceAs (Decidable (_ ∧ _ ∧ _))

def IsStranded (tables : Tables) : Prop :=
  tables.Stranded one.job.orgId one.made.visit.item

instance (one : RunVisit Cursor) (tables : Tables) : Decidable (one.IsStranded tables) :=
  inferInstanceAs (Decidable (tables.Stranded _ _))

def IsCited (tables : Tables) : Prop :=
  tables.Cited one.job.orgId one.made.visit.item

instance (one : RunVisit Cursor) (tables : Tables) : Decidable (one.IsCited tables) :=
  inferInstanceAs (Decidable (tables.Cited _ _))

end RunVisit

/-- The visits of all the runs, each of which begins with the tables the last one left. -/
def allVisits : List (BackfillRun Cursor) -> Tables -> List (RunVisit Cursor)
  | [], _ => []
  | one :: rest, tables =>
    (one.visits tables).map (RunVisit.mk one.job) ++ allVisits rest (one.leaves tables)

def afterRuns : List (BackfillRun Cursor) -> Tables -> Tables
  | [], tables => tables
  | one :: rest, tables => afterRuns rest (one.leaves tables)

/-- An item which is counted is cited, at once and when the runs are over. -/
structure Cites (runs : List (BackfillRun Cursor)) (tables : Tables) : Prop where
  atOnce : ∀ one ∈ allVisits runs tables, one.IsCounted ->
    one.IsCited one.made.after.tables
  atLast : ∀ one ∈ allVisits runs tables, one.IsCounted ->
    one.IsCited (afterRuns runs tables)

/-- No item is found which had no citation from the start or whose citation has failed. -/
structure NoneFoundAgain (runs : List (BackfillRun Cursor)) (tables : Tables) : Prop where
  fromStart : ∀ one ∈ allVisits runs tables, one.finds = true ->
    Not (one.IsStranded tables)
  since : (allVisits runs tables).Pairwise fun earlier later =>
    earlier.strands = true -> later.finds = true -> Not (earlier.SameItem later)

section Visits

variable {settings : Settings} {around : Surroundings} {job : Job Cursor} {visit : Visit}
variable {state : RunState Cursor} {tables : Tables} {ended tokens : Nat}
variable {raised : Thrown -> RunState Cursor -> Prop}

/-- The tables are the given ones, and so many items are counted. -/
def Shows (tables : Tables) (ended : Nat) (now : RunState Cursor) : Prop :=
  now.tables = tables ∧ now.progress.ended = ended

theorem shows_modify {change : RunState Cursor -> RunState Cursor}
    (same : ∀ now, (change now).tables = now.tables)
    (count : ∀ now, (change now).progress.ended = now.progress.ended) :
    Ensures (Shows tables ended) (modify change) (fun _ => Shows tables ended) raised :=
  ensures_modify fun now shows => ⟨(same now).trans shows.1, (count now).trans shows.2⟩

theorem shows_countError (thrown : Thrown) :
    Program.Keeps (Shows tables ended) (countError thrown : Running Cursor Outcome) := by
  unfold countError
  split
  · exact ensures_bind _ (shows_modify (fun _ => rfl) fun _ => rfl) fun _ => Program.keeps_pure _
  · exact Program.keeps_throw _

theorem shows_maybeCheckpoint :
    Program.Keeps (Shows tables ended) (maybeCheckpoint settings around job) := by
  unfold maybeCheckpoint
  split
  · refine Program.keeps_bind Program.keeps_get fun read => ?_
    refine Program.keeps_bind (shows_modify (fun _ => rfl) fun _ => rfl) fun _ => ?_
    split
    · exact Program.keeps_pure _
    · refine Program.keeps_bind (shows_modify (fun _ => rfl) fun _ => rfl) fun _ => ?_
      refine Program.keeps_bind ?_ fun _ => shows_modify (fun _ => rfl) fun _ => rfl
      unfold writeCheckpoint
      split
      · exact Program.keeps_throw _
      · exact shows_modify (fun _ => rfl) fun _ => rfl
  · exact Program.keeps_pure _

theorem shows_checkpointed :
    Program.Keeps (Shows tables ended) (do maybeCheckpoint settings around job; pure Signal.next) :=
  Program.keeps_bind shows_maybeCheckpoint fun _ => Program.keeps_pure _

theorem shows_concludeItem (outcome : Outcome) : Program.Keeps (Shows tables ended)
      (concludeItem settings around job visit.item outcome) := by
  cases outcome with
  | budgetHalt =>
    exact Program.keeps_bind (shows_modify (fun _ => rfl) fun _ => rfl) fun _ => Program.keeps_pure _
  | errored =>
    refine Program.keeps_bind Program.keeps_get fun read => ?_
    split
    · refine Program.keeps_bind (shows_modify (fun _ => rfl) fun _ => rfl) fun _ => ?_
      exact Program.keeps_pure _
    · exact shows_checkpointed
  | stored =>
    exact Program.keeps_bind (shows_modify (fun _ => rfl) fun _ => rfl) fun _ => shows_checkpointed
  | dropped => exact shows_checkpointed

/-- Whether it returns or raises, the program leaves the tables and adds to what is counted. -/
def Leaves {Value : Type} (tables : Tables) (ended : Nat) (ledger : Tables × Nat)
    (program : Running Cursor Value) : Prop :=
  Ensures (Shows tables ended) program (fun _ => Shows ledger.1 (ended + ledger.2))
    (fun _ => Shows ledger.1 (ended + ledger.2))

theorem leaves_of_keeps {Value : Type} {program : Running Cursor Value}
    (keeps : Program.Keeps (Shows tables ended) program) :
    Leaves tables ended (tables, 0) program :=
  keeps

theorem leaves_bind {Value Result : Type} {ledger : Tables × Nat} {first : Running Cursor Value}
    {next : Value -> Running Cursor Result}
    (starts : ∀ {raised}, Ensures (Shows tables ended) first (fun _ => Shows tables ended) raised)
    (goesOn : ∀ value, Leaves tables ended ledger (next value)) :
    Leaves tables ended ledger (first >>= next) :=
  ensures_bind _ starts goesOn

theorem leaves_store {body : String} {embedding : List Rat} (inserted : visit.answers.insert = none) :
    Leaves tables ended (tables.insert job.orgId visit.item visit.answers.cite
        (knowledgeRow job.orgId visit.item body embedding)) (store job visit body embedding) := by
  unfold store
  rw [inserted]
  dsimp only
  refine ensures_bind _ ensures_get fun read => ?_
  refine ensures_from (fun now both => ⟨both.1, both.2 ▸ congrArg Tables.knowledge both.1.1⟩)
    fun known : read.knowledge = tables.knowledge => ?_
  unfold Tables.insert Tables.holds
  rw [known]
  split
  · refine ensures_bind _ (shows_modify (fun _ => rfl) fun _ => rfl) fun _ => ?_
    refine ensures_bind (fun _ => Shows tables (ended + 1)) (ensures_modify ?_) fun _ =>
      Program.keeps_pure _
    intro now shows
    exact ⟨shows.1, (congrArg (· + 1) shows.2 : now.progress.ended + 1 = ended + 1)⟩
  · let row := knowledgeRow job.orgId visit.item body embedding
    refine ensures_bind (fun _ => Shows (tables.addRow row) ended)
      (ensures_modify fun now shows => ⟨shows.1 ▸ rfl, shows.2⟩) fun _ => ?_
    cases visit.answers.cite with
    | some thrown => exact shows_countError thrown
    | none =>
      let cited := (tables.addRow row).addSource tables.knowledge.length visit.item
      refine ensures_bind (fun _ => Shows cited ended)
        (ensures_modify fun now shows => ⟨?_, shows.2⟩) fun _ => ?_
      · change (now.tables.addSource _ visit.item) = cited
        rw [shows.1]
      · refine ensures_bind (fun _ => Shows cited (ended + 1)) (ensures_modify ?_) fun _ =>
          Program.keeps_pure _
        intro now shows
        refine ⟨shows.1, ?_⟩
        have count : now.progress.stored + now.progress.skippedExisting = ended := shows.2
        change now.progress.stored + 1 + now.progress.skippedExisting = ended + 1
        omega

theorem leaves_countError {row : Option KnowledgeRow} (absent : row = none) (thrown : Thrown) :
    Leaves tables ended (tables.insertIf job.orgId visit row)
      (countError thrown : Running Cursor Outcome) := by
  subst absent
  exact leaves_of_keeps (shows_countError thrown)

theorem leaves_processItem (kept : visit.answers.filter = .ok .keep) (wet : job.dryRun = false) :
    Program.Reaches (fun now => Shows tables ended now ∧
        now.progress.tokensConsumed = state.progress.tokensConsumed)
      (Shows (tables.insertIf job.orgId visit (inserting job state visit)).1
        (ended + (tables.insertIf job.orgId visit (inserting job state visit)).2))
      (processItem job visit) := by
  unfold processItem
  refine ensures_bind _ ensures_get fun read => ?_
  refine ensures_from (fun now both => ⟨both.1.1, both.2 ▸ both.1.2⟩)
    fun tokens : read.progress.tokensConsumed = state.progress.tokensConsumed => ?_
  change Leaves tables ended _ _
  unfold inserting overBudget
  rw [tokens, kept, wet]
  dsimp only
  by_cases spent : job.tokenBudget ≤ state.progress.tokensConsumed + visit.item.body.length / 4
  case pos =>
    have halted : Leaves tables ended (tables, 0)
        (do skip "budget_halted"; pure Outcome.budgetHalt : Running Cursor Outcome) :=
      leaves_bind (shows_modify (fun _ => rfl) fun _ => rfl) fun _ => Program.keeps_pure _
    rw [if_pos spent]
    simp only [spent, decide_true, Bool.or_true, if_true]
    split <;> exact halted
  case neg =>
    rw [if_neg spent]
    simp only [spent, decide_false, Bool.or_false, Bool.false_eq_true, if_false]
    cases visit.answers.redact with
    | error thrown =>
      cases thrown with
      | secretDetected =>
        refine leaves_bind (shows_modify (fun _ => rfl) fun _ => rfl) fun _ => ?_
        exact Program.keeps_pure _
      | skipped reason | exception error | cancelled => exact leaves_countError rfl _
    | ok body =>
      refine leaves_bind (shows_modify (fun _ => rfl) fun _ => rfl) fun _ => ?_
      unfold embedAndStore
      cases visit.answers.embed with
      | error thrown => exact leaves_countError rfl thrown
      | ok embedding =>
        refine leaves_bind (shows_modify (fun _ => rfl) fun _ => rfl) fun _ => ?_
        cases inserted : visit.answers.insert with
        | some thrown =>
          unfold store
          rw [inserted]
          exact leaves_countError rfl thrown
        | none => exact leaves_store inserted

theorem leaves_attemptItem : Program.Reaches (fun now => Shows tables ended now ∧
        now.progress.tokensConsumed = state.progress.tokensConsumed)
      (Shows (tables.insertIf job.orgId visit (inserting job state visit)).1
        (ended + (tables.insertIf job.orgId visit (inserting job state visit)).2))
      (attemptItem settings around job visit) := by
  have stays : ∀ {program : Running Cursor Signal}, inserting job state visit = none ->
      Program.Keeps (Shows tables ended) program ->
      Leaves tables ended (tables.insertIf job.orgId visit (inserting job state visit)) program := by
    intro program absent keeps
    rw [absent]
    exact leaves_of_keeps keeps
  unfold attemptItem
  refine ensures_bind (fun verdict now => (Shows tables ended now ∧
      now.progress.tokensConsumed = state.progress.tokensConsumed) ∧
      visit.answers.filter = .ok verdict)
    (ensures_ofExcept (fun verdict answered now both => ⟨both, answered⟩) ?_) fun verdict =>
    ensures_of_fact fun answered => ?_
  · intro thrown answered
    exact Ensures.start (stays (by simp [inserting, answered]) (Program.keeps_throw thrown))
      fun _ both => both.1
  · cases verdict with
    | drop skipReason =>
      refine Ensures.start (stays (by simp [inserting, answered]) ?_) fun _ both => both.1
      refine Program.keeps_bind (shows_modify (fun _ => rfl) fun _ => rfl) fun _ => ?_
      refine Program.keeps_bind (shows_modify (fun _ => rfl) fun _ => rfl) fun _ => ?_
      exact shows_checkpointed
    | keep =>
      refine ensures_bind (fun _ now => Shows tables ended now ∧
        now.progress.tokensConsumed = state.progress.tokensConsumed) (ensures_modify ?_) fun _ => ?_
      · intro now both
        split <;> exact both
      · cases wet : job.dryRun with
        | true =>
          have absent : inserting job state visit = none := by
            unfold inserting
            rw [wet]
            split <;> rfl
          refine Ensures.start (stays absent ?_) fun _ both => both.1
          refine Program.keeps_bind (shows_modify (fun _ => rfl) fun _ => rfl) fun _ => ?_
          refine Program.keeps_bind (shows_modify (fun _ => rfl) fun _ => rfl) fun _ => ?_
          exact shows_checkpointed
        | false =>
          refine ensures_bind _ (leaves_processItem answered wet) fun outcome => ?_
          exact shows_concludeItem outcome

theorem leaves_visitItem : Program.Reaches (fun now => now = state)
      (Shows (ledgerAfter job state visit).1 (state.progress.ended + (ledgerAfter job state visit).2))
      (visitItem settings around job visit) := by
  refine ensures_bind (fun _ now => Shows state.tables state.progress.ended now ∧
    now.progress.tokensConsumed = state.progress.tokensConsumed) (ensures_modify ?_) fun _ => ?_
  · rintro _ rfl
    exact ⟨⟨rfl, rfl⟩, rfl⟩
  · refine ensures_tryCatch leaves_attemptItem fun thrown => ?_
    cases thrown with
    | skipped reason =>
      refine Program.keeps_bind (shows_modify (fun _ => rfl) fun _ => rfl) fun _ => ?_
      exact Program.keeps_bind (shows_modify (fun _ => rfl) fun _ => rfl) fun _ => shows_checkpointed
    | secretDetected | exception error | cancelled => exact Program.keeps_throw _

theorem visited_shows (state : RunState Cursor) (visit : Visit) :
    Shows (ledgerAfter job state visit).1 (state.progress.ended + (ledgerAfter job state visit).2)
      ((visitItem settings around job visit).run.run state).2 :=
  Ensures.after leaves_visitItem rfl

end Visits

/-! ## What the statements do to the tables -/

section Statements

variable {tables : Tables} {orgId owner : UUID} {item other : BackfillItem} {row : KnowledgeRow}

theorem zipIdx_addRow : (tables.addRow row).knowledge.zipIdx =
      tables.knowledge.zipIdx ++ [(row, tables.knowledge.length)] := by
  simp [Tables.addRow, List.zipIdx_append]

/-- The place of a new row has no citation, since every citation is of a row. -/
theorem not_citedAt_length (referring : tables.Referring) :
    Not (tables.CitedAt tables.knowledge.length) := by
  rintro ⟨source, member, same⟩
  exact absurd (referring source member) (same ▸ Nat.lt_irrefl _)

theorem citedAt_addSource {index place : Nat} :
    (tables.addSource index item).CitedAt place <-> tables.CitedAt place ∨ index = place := by
  simp [Tables.CitedAt, Tables.addSource, or_and_right, exists_or]

theorem stranded_addRow (referring : tables.Referring) :
    (tables.addRow row).Stranded owner other <->
      tables.Stranded owner other ∨ row.isFor owner other = true := by
  have same : ∀ place, (tables.addRow row).CitedAt place <-> tables.CitedAt place :=
    fun _ => Iff.rfl
  unfold Tables.Stranded
  simp only [zipIdx_addRow, List.mem_append, List.mem_singleton, or_and_right, exists_or, same,
    exists_eq_left, not_citedAt_length referring, not_false_eq_true, and_true]

theorem stranded_addSource :
    ((tables.addRow row).addSource tables.knowledge.length item).Stranded owner other <->
      tables.Stranded owner other := by
  have cited : ∀ place,
      ((tables.addRow row).addSource tables.knowledge.length item).CitedAt place <->
        tables.CitedAt place ∨ tables.knowledge.length = place :=
    fun _ => citedAt_addSource
  have rows : ((tables.addRow row).addSource tables.knowledge.length item).knowledge.zipIdx =
      tables.knowledge.zipIdx ++ [(row, tables.knowledge.length)] := zipIdx_addRow
  unfold Tables.Stranded
  simp only [rows, cited, List.mem_append, List.mem_singleton, or_and_right, exists_or,
    exists_eq_left, or_true, not_true_eq_false, and_false, or_false]
  refine exists_congr fun entry => and_congr_right fun member => and_congr_right fun _ => ?_
  have place : entry.2 < tables.knowledge.length := by
    have bound := List.snd_lt_add_of_mem_zipIdx member
    omega
  simp [Nat.ne_of_gt place]

variable {visit : Visit} {made : Option KnowledgeRow}

theorem stranded_insertIf (referring : tables.Referring) :
    (tables.insertIf orgId visit made).1.Stranded owner other <->
      tables.Stranded owner other ∨ (tables.holds orgId visit.item = false ∧
        visit.answers.cite.isSome = true ∧
        ∃ row, made = some row ∧ row.isFor owner other = true) := by
  cases made with
  | none => simp [Tables.insertIf]
  | some row =>
    unfold Tables.insertIf Tables.insert
    cases held : tables.holds orgId visit.item with
    | true => simp
    | false =>
      cases visit.answers.cite with
      | some thrown => simp [stranded_addRow referring]
      | none => simp [stranded_addSource]

theorem insertIf_cases (holds : Tables -> Prop) (same : holds tables)
    (added : ∀ row, holds (tables.addRow row))
    (cited : ∀ row, holds ((tables.addRow row).addSource tables.knowledge.length visit.item)) :
    holds (tables.insertIf orgId visit made).1 := by
  cases made with
  | none => exact same
  | some row =>
    change holds (tables.insert orgId visit.item visit.answers.cite row).1
    unfold Tables.insert
    split
    · exact same
    · cases visit.answers.cite with
      | some thrown => exact added row
      | none => exact cited row

theorem referring_insertIf (referring : tables.Referring) :
    (tables.insertIf orgId visit made).1.Referring := by
  have added : ∀ row, (tables.addRow row).Referring := by
    intro row source member
    have before := referring source member
    simp only [Tables.addRow, List.length_append, List.length_singleton]
    omega
  refine insertIf_cases Tables.Referring referring added fun row source member => ?_
  rcases List.mem_append.mp member with old | new
  · exact added row source old
  · rw [List.mem_singleton.mp new]
    simp [Tables.addRow, Tables.addSource]

theorem holds_insertIf (held : tables.holds owner other = true) :
    (tables.insertIf orgId visit made).1.holds owner other = true := by
  have added : ∀ row, (tables.addRow row).holds owner other = true := by
    intro row
    rw [Tables.holds, Tables.addRow, List.any_append]
    exact Bool.or_eq_true_iff.mpr (.inl held)
  exact insertIf_cases (fun tables => tables.holds owner other = true) held added added

theorem not_stranded_of_not_held (absent : tables.holds owner other = false) :
    Not (tables.Stranded owner other) := by
  rintro ⟨entry, member, isFor, _⟩
  have there := List.any_eq_false.mp absent entry.1 (List.fst_mem_of_mem_zipIdx member)
  exact there isFor

end Statements

/-! ## What one visit does -/

section Steps

variable {one other : RunVisit Cursor}

theorem isFor_of_inserting {row : KnowledgeRow}
    (made : inserting one.job one.made.before one.made.visit = some row) :
    row.isFor other.job.orgId other.made.visit.item = true <-> one.SameItem other := by
  unfold inserting at made
  split at made
  · split at made
    · cases made
    · cases made
      simp [KnowledgeRow.isFor, knowledgeRow, RunVisit.SameItem, and_assoc]
  · cases made

def RunVisit.Follows (one : RunVisit Cursor) : Prop :=
  Shows (ledgerAfter one.job one.made.before one.made.visit).1
    (one.made.before.progress.ended + (ledgerAfter one.job one.made.before one.made.visit).2)
    one.made.after

theorem RunVisit.Follows.stranded_iff (follows : one.Follows)
    (referring : one.made.before.tables.Referring) : other.IsStranded one.made.after.tables <->
      other.IsStranded one.made.before.tables ∨ (one.strands = true ∧ one.SameItem other) := by
  unfold RunVisit.IsStranded
  rw [follows.1, ledgerAfter, stranded_insertIf referring]
  refine or_congr_right ?_
  cases made : inserting one.job one.made.before one.made.visit with
  | none => simp [RunVisit.strands, made]
  | some row => simp [RunVisit.strands, made, isFor_of_inserting made, and_assoc]

/-- A counted item is cited unless its row was found without a citation. -/
theorem RunVisit.Follows.cited_iff (follows : one.Follows) :
    (one.IsCounted -> one.IsCited one.made.after.tables) <->
      (one.finds = true -> Not (one.IsStranded one.made.before.tables)) := by
  have counts := follows.2
  have shown := follows.1
  unfold RunVisit.IsCounted RunVisit.IsCited RunVisit.finds RunVisit.IsStranded
  rw [counts, shown]
  unfold ledgerAfter
  cases made : inserting one.job one.made.before one.made.visit with
  | none => simp [Tables.insertIf]
  | some row =>
    unfold Tables.insertIf Tables.insert
    cases held : one.made.before.tables.holds one.job.orgId one.made.visit.item with
    | true => simp [Tables.Cited, held]
    | false =>
      have fresh := not_stranded_of_not_held held
      have own := (isFor_of_inserting made).mpr ⟨rfl, rfl, rfl⟩
      cases cited : one.made.visit.answers.cite with
      | some thrown => simp
      | none =>
        have there : ((one.made.before.tables.addRow row).addSource
            one.made.before.tables.knowledge.length one.made.visit.item).holds
              one.job.orgId one.made.visit.item = true := by
          simp [Tables.holds, Tables.addSource, Tables.addRow, own]
        simp [Tables.Cited, stranded_addSource, fresh, there]

theorem RunVisit.Follows.referring (follows : one.Follows)
    (referring : one.made.before.tables.Referring) : one.made.after.tables.Referring := by
  rw [follows.1]
  exact referring_insertIf referring

theorem RunVisit.SameItem.holds {tables : Tables} (same : one.SameItem other) :
    tables.holds one.job.orgId one.made.visit.item =
      tables.holds other.job.orgId other.made.visit.item := by
  unfold Tables.holds KnowledgeRow.isFor
  rw [same.1, same.2.1, same.2.2]

theorem RunVisit.Follows.keeps_cited (follows : one.Follows)
    (referring : one.made.before.tables.Referring) (cited : other.IsCited one.made.before.tables) :
    other.IsCited one.made.after.tables := by
  constructor
  · rw [follows.1]
    exact holds_insertIf cited.1
  · intro stranded
    rcases (follows.stranded_iff referring).mp stranded with before | ⟨strands, same⟩
    · exact cited.2 before
    · have free : one.made.before.tables.holds one.job.orgId one.made.visit.item = false := by
        unfold RunVisit.strands at strands
        simp only [Bool.and_eq_true, Bool.not_eq_true'] at strands
        exact strands.2.1
      rw [same.holds] at free
      cases free.symm.trans cited.1

end Steps

inductive Linked : Tables -> List (RunVisit Cursor) -> Tables -> Prop
  | nil (tables : Tables) : Linked tables [] tables
  | cons {one : RunVisit Cursor} {rest : List (RunVisit Cursor)} {last : Tables}
      (follows : one.Follows) (linked : Linked one.made.after.tables rest last) :
      Linked one.made.before.tables (one :: rest) last

namespace Linked

variable {start middle last : Tables} {trace more : List (RunVisit Cursor)} {other : RunVisit Cursor}

theorem append (linked : Linked start trace middle) (goesOn : Linked middle more last) :
    Linked start (trace ++ more) last := by
  induction linked with
  | nil => exact goesOn
  | cons follows _ ih => exact .cons follows (ih goesOn)

theorem keeps_cited (linked : Linked start trace last) (referring : start.Referring)
    (cited : other.IsCited start) : other.IsCited last := by
  induction linked with
  | nil => exact cited
  | cons follows _ ih =>
    exact ih (follows.referring referring) (follows.keeps_cited referring cited)

theorem lasting (linked : Linked start trace last) (referring : start.Referring)
    (atOnce : ∀ one ∈ trace, one.IsCounted -> one.IsCited one.made.after.tables) :
    ∀ one ∈ trace, one.IsCounted -> one.IsCited last := by
  induction linked with
  | nil => exact fun _ absent => nomatch absent
  | cons follows linked ih =>
    rw [List.forall_mem_cons] at atOnce ⊢
    have later := follows.referring referring
    exact ⟨fun counted => linked.keeps_cited later (atOnce.1 counted), ih later atOnce.2⟩

/-- Induction on the visits: what is stranded later on was so at the start or has been
stranded by a visit in between. -/
theorem cited_iff (linked : Linked start trace last) (referring : start.Referring) :
    (∀ one ∈ trace, one.IsCounted -> one.IsCited one.made.after.tables) <->
      (∀ one ∈ trace, one.finds = true -> Not (one.IsStranded start)) ∧
        trace.Pairwise fun earlier later =>
          earlier.strands = true -> later.finds = true -> Not (earlier.SameItem later) := by
  induction linked with
  | nil => simp
  | @cons first rest last follows linked ih =>
    have later := follows.referring referring
    rw [List.forall_mem_cons, List.forall_mem_cons, List.pairwise_cons, follows.cited_iff, ih later]
    have apart : (∀ one ∈ rest, one.finds = true ->
          Not (one.IsStranded first.made.after.tables)) <->
        (∀ one ∈ rest, one.finds = true -> Not (one.IsStranded first.made.before.tables)) ∧
        ∀ one ∈ rest, first.strands = true -> one.finds = true ->
          Not (first.SameItem one) := by
      rw [← forall₂_and]
      refine forall₂_congr fun one member => ?_
      rw [follows.stranded_iff referring]
      tauto
    rw [apart]
    tauto

end Linked

/-! ## The visits of the runs -/

section Runs

variable {settings : Settings} {around : Surroundings} {job : Job Cursor}

theorem shows_finallyReport {tables : Tables} {ended : Nat} (looped : Except Thrown Bool) :
    Program.Keeps (Shows tables ended) (finallyReport settings around job looped) := by
  have torn : Program.Keeps (Shows tables ended)
      (tearDown around : Running Cursor (Option Thrown)) := by
    unfold tearDown
    split
    · exact Program.keeps_pure _
    · split
      · refine Program.keeps_bind (ensures_modify fun now shows => ?_) fun _ => Program.keeps_pure _
        split <;> exact shows
      · exact Program.keeps_throw _
  have ends : ∀ teardownError : Option Thrown, Program.Keeps (Shows tables ended)
      (match teardownError with
        | some thrown => throw thrown
        | none => pure ⟨⟩ : Running Cursor PUnit) := by
    intro teardownError
    cases teardownError with
    | some thrown => exact Program.keeps_throw _
    | none => exact Program.keeps_pure _
  have writes : ∀ answer : Option Thrown, Program.Keeps (Shows tables ended)
      (writeCheckpoint job answer) := by
    intro answer
    cases answer with
    | some thrown => exact Program.keeps_throw _
    | none => exact shows_modify (fun _ => rfl) fun _ => rfl
  have finishes : ∀ answer : Option Thrown, Program.Keeps (Shows tables ended)
      (finish answer : Running Cursor PUnit) := by
    intro answer
    cases answer with
    | some thrown => exact Program.keeps_throw _
    | none => exact shows_modify (fun _ => rfl) fun _ => rfl
  unfold finallyReport lastBlock
  refine Program.keeps_bind (Program.keeps_bind (shows_modify (fun _ => rfl) fun _ => rfl) fun _ => ?_)
    fun _ => ?_
  · refine Program.keeps_bind torn fun teardownError => ?_
    dsimp only
    split
    · refine Program.keeps_bind (writes _) fun _ => ?_
      exact Program.keeps_bind (finishes _) fun _ => ends teardownError
    · exact ends teardownError
  · cases looped with
    | error thrown => exact Program.keeps_throw _
    | ok exhausted => exact Program.keeps_bind Program.keeps_get fun _ => Program.keeps_pure _

theorem tables_finallyReport (looped : Except Thrown Bool) (state : RunState Cursor) :
    ((finallyReport settings around job looped).run.run state).2.tables = state.tables := by
  have shows : Shows state.tables state.progress.ended
      ((finallyReport settings around job looped).run.run state).2 :=
    Ensures.after (shows_finallyReport looped) ⟨rfl, rfl⟩
  exact shows.1

theorem linked_visited (visits : List Visit) : ∀ state : RunState Cursor,
    Linked state.tables ((visited settings around job visits state).map (RunVisit.mk job))
      ((loop settings around job visits).run.run state).2.tables := by
  induction visits with
  | nil =>
    intro state
    have same : ((loop settings around job []).run.run state).2 = state := by
      unfold loop
      split <;> rfl
    rw [same]
    exact .nil _
  | cons visit rest ih =>
    intro state
    have follows : RunVisit.Follows ⟨job, visit, state,
        ((visitItem settings around job visit).run.run state).2⟩ := visited_shows state visit
    rw [visited_cons, List.map_cons]
    refine .cons follows ?_
    unfold loop
    rcases ran : (visitItem settings around job visit).run.run state with ⟨answer, after⟩
    cases answer with
    | error thrown =>
      rw [run_bind_error ran]
      exact .nil _
    | ok signal =>
      rw [run_bind_ok ran]
      cases signal with
      | stop => exact .nil _
      | next => exact ih after

theorem tables_loopStart {tables : Tables} {state : RunState Cursor}
    (started : loopStart settings around tables.knowledge tables.sources = some state) :
    state.tables = tables := by
  have begins : Program.Keeps (Shows tables 0) (startRow settings around : Running Cursor PUnit) := by
    unfold startRow
    split
    · split
      · exact Program.keeps_throw _
      · exact shows_modify (fun _ => rfl) fun _ => rfl
    · exact Program.keeps_pure _
  have shows : Shows tables 0
      ((startRow settings around).run.run (fresh tables.knowledge tables.sources : RunState Cursor)).2 :=
    Ensures.after begins ⟨rfl, rfl⟩
  unfold loopStart at started
  split at started
  · rename_i after _ begun
    rw [begun] at shows
    cases started
    exact shows.1
  · cases started

theorem linked_run (one : BackfillRun Cursor) (tables : Tables) :
    Linked tables ((one.visits tables).map (RunVisit.mk one.job)) (one.leaves tables) := by
  unfold BackfillRun.visits BackfillRun.leaves madeVisits
  cases started : loopStart one.settings one.around tables.knowledge tables.sources with
  | none =>
    have ⟨same, _⟩ : (ran one.settings one.around one.job tables.knowledge tables.sources).2 =
        fresh tables.knowledge tables.sources ∧ ∃ thrown,
          (ran one.settings one.around one.job tables.knowledge tables.sources).1 = .error thrown :=
      ran_unstarted started
    rw [same]
    exact .nil tables
  | some state =>
    have visits := @linked_visited _ one.settings one.around one.job one.job.listing.visits state
    rw [tables_loopStart started] at visits
    rw [ran_started started, tables_finallyReport]
    exact visits

theorem linked_runs (runs : List (BackfillRun Cursor)) : ∀ tables : Tables,
    Linked tables (allVisits runs tables) (afterRuns runs tables) := by
  induction runs with
  | nil => exact .nil
  | cons one rest ih => exact fun tables => (linked_run one tables).append (ih _)

end Runs

/-- Over any sequence of runs the counted items are cited exactly if no item is found again
which has been left without its citation. -/
theorem cites_iff (runs : List (BackfillRun Cursor)) (tables : Tables) (referring : tables.Referring) :
    Cites runs tables <-> NoneFoundAgain runs tables := by
  have linked := linked_runs runs tables
  constructor
  · intro cites
    have apart := (linked.cited_iff referring).mp cites.atOnce
    exact ⟨apart.1, apart.2⟩
  · intro none
    have atOnce := (linked.cited_iff referring).mpr ⟨none.fromStart, none.since⟩
    exact ⟨atOnce, linked.lasting referring atOnce⟩

def oneItem (cite : Option Thrown) : BackfillRun String where
  settings := wiredSettings
  around := calm
  job := { threeItems none with
    listing := { visits := [plainVisit "a" { keptAnswers with cite := cite }], ending := none } }

theorem cites_oneItem : Cites [oneItem none, oneItem none] ⟨[], []⟩ := by
  refine (cites_iff [oneItem none, oneItem none] ⟨[], []⟩ ?_).mpr ⟨?_, ?_⟩
  · exact fun _ absent => nomatch absent
  · decide +kernel
  · decide +kernel

/-- The citation fails in the first run, and the second one counts the item as there already. -/
theorem citation_never_repaired :
    Not (Cites [oneItem (some (.exception (.raised "ConnectionDoesNotExistError" ""))), oneItem none]
      ⟨[], []⟩) := by
  intro cites
  have atLast := cites.atLast
  revert atLast
  decide +kernel

end Backfill
end BreadMind
