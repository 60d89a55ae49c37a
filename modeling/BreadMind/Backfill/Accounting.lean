import BreadMind.Backfill.Status

namespace BreadMind
namespace Backfill

open Execution
open Execution.Program

/-!
# Where the discovered items go

Every item that is discovered should end in one bucket: filtered out, dropped
for a secret, halted by the budget, failed, stored or there already.  Two of the
buckets are entries of the dictionary of skips, which the filter fills under
reasons of its own, and the others are counters.

The surplus is what is discovered and in no bucket.  A visit leaves it alone
exactly if the item is accountable, which is decided by what the collaborators
answer and the state before it.
-/

variable {Cursor : Type}

def skippedCount (reason : String) (skipped : List (String × Nat)) : Nat :=
  (skipped.lookup reason).getD 0

def bucketed (progress : JobProgress) (skipped : List (String × Nat)) : Nat :=
  progress.filteredOut + skippedCount "redact_dropped" skipped +
    skippedCount "budget_halted" skipped + progress.errors + progress.stored +
    progress.skippedExisting

/-- Every item is in one bucket, and the budget is not used up. -/
structure Balanced (tokenBudget : Nat) (progress : JobProgress) (skipped : List (String × Nat)) :
    Prop where
  discovered : progress.discovered = bucketed progress skipped
  tokens : progress.tokensConsumed < tokenBudget

structure Made (Cursor : Type) where
  visit : Visit
  before : RunState Cursor
  after : RunState Cursor

def visited (settings : Settings) (around : Surroundings) (job : Job Cursor) :
    List Visit -> RunState Cursor -> List (Made Cursor)
  | [], _ => []
  | visit :: rest, state =>
    let (answer, after) := (visitItem settings around job visit).run.run state
    { visit, before := state, after } :: match answer with
      | .ok .next => visited settings around job rest after
      | _ => []

variable (settings : Settings) (around : Surroundings)

def loopStart (knowledge : List KnowledgeRow)
    (sources : List SourceRow) : Option (RunState Cursor) :=
  match around.prepare, (startRow settings around).run.run (fresh knowledge sources) with
  | none, (.ok _, state) => some { state with
      lastCpTime := around.clock state.clockReads, clockReads := state.clockReads + 1 }
  | _, _ => none

variable (job : Job Cursor)

def madeVisits (knowledge : List KnowledgeRow) (sources : List SourceRow) : List (Made Cursor) :=
  match loopStart settings around knowledge sources with
  | some state => visited settings around job job.listing.visits state
  | none => []

/-- The counters add up after every visit, in every checkpoint, at the end and in the report. -/
structure Accounts (knowledge : List KnowledgeRow) (sources : List SourceRow) : Prop where
  visits : ∀ made ∈ madeVisits settings around job knowledge sources,
    Balanced job.tokenBudget made.after.progress made.after.skipped
  checkpoints : ∀ made row, made ∈ madeVisits settings around job knowledge sources ->
    made.after.row = some row -> Balanced job.tokenBudget row.progress row.skipped
  last : Balanced job.tokenBudget (ran settings around job knowledge sources).2.progress
    (ran settings around job knowledge sources).2.skipped
  lastCheckpoint : ∀ row, (ran settings around job knowledge sources).2.row = some row ->
    Balanced job.tokenBudget row.progress row.skipped
  report : ∀ report, (ran settings around job knowledge sources).1 = .ok report ->
    report.estimatedCount = (ran settings around job knowledge sources).2.progress.stored +
      (ran settings around job knowledge sources).2.progress.skippedExisting

def filterReason (answers : Answers) : Option String :=
  match answers.filter with
  | .error (.skipped reason) => some reason
  | .ok (.drop skipReason) => some (skipReason.getD "filtered")
  | _ => none

/-- The reasons under which the pipeline counts its own drops. -/
def Reserved (reason : String) : Prop :=
  reason = "redact_dropped" ∨ reason = "budget_halted"

instance (reason : String) : Decidable (Reserved reason) :=
  inferInstanceAs (Decidable (_ ∨ _))

instance (answers : Answers) :
    Decidable (∀ reason, filterReason answers = some reason -> ¬ Reserved reason) :=
  inferInstanceAs (Decidable (∀ reason ∈ filterReason answers, ¬ Reserved reason))

/-- The item is not left in the middle, and its checkpoint is not answered by a skip. -/
def Course.IsAccountable (checkpoint : Option Thrown) : Course -> Prop
  | .stops => True
  | .raises _ => False
  | .goesOn => ∀ reason, checkpoint ≠ some (.skipped reason)
  | .caught => True

instance (checkpoint : Option Thrown) : ∀ course : Course, Decidable (course.IsAccountable checkpoint)
  | .stops => isTrue trivial
  | .raises _ => isFalse id
  | .goesOn =>
    match checkpoint with
    | some (.skipped reason) => isFalse fun never => never reason rfl
    | some .secretDetected => isTrue fun _ same => nomatch same
    | some (.exception _) => isTrue fun _ same => nomatch same
    | some .cancelled => isTrue fun _ same => nomatch same
    | none => isTrue fun _ same => nomatch same
  | .caught => isTrue trivial

/-- The filter uses no reason of the pipeline, and the item comes to an end. -/
def Accountable (state : RunState Cursor) (visit : Visit) : Prop :=
  (∀ reason, filterReason visit.answers = some reason -> ¬ Reserved reason) ∧
    (course settings job state visit).IsAccountable (checkpointRaises settings around state 0)

instance (settings : Settings) (around : Surroundings) (job : Job Cursor) (state : RunState Cursor)
    (visit : Visit) : Decidable (Accountable settings around job state visit) :=
  inferInstanceAs (Decidable (_ ∧ _))

/-! ## The surplus -/

section Surplus

variable {progress : JobProgress} {skipped : List (String × Nat)} {reason : String}

/-- What is discovered and in no bucket; an item in two buckets makes it negative. -/
def surplus (progress : JobProgress) (skipped : List (String × Nat)) : Int :=
  progress.discovered - bucketed progress skipped

theorem surplus_eq_zero : surplus progress skipped = 0 <-> progress.discovered = bucketed progress skipped := by
  unfold surplus
  omega

theorem lookup_map_value (change : String -> Nat -> Nat) (skipped : List (String × Nat)) (other : String) :
    (skipped.map fun entry => (entry.1, change entry.1 entry.2)).lookup other =
      (skipped.lookup other).map (change other) := by
  induction skipped with
  | nil => rfl
  | cons entry rest ih =>
    rw [List.map_cons, List.lookup_cons, List.lookup_cons]
    cases same : other == entry.1 with
    | true =>
      rw [eq_of_beq same]
      rfl
    | false => exact ih

theorem skippedCount_countSkip (other : String) : skippedCount other (countSkip reason skipped) =
      skippedCount other skipped + if other = reason then 1 else 0 := by
  unfold skippedCount countSkip
  split
  · rename_i known
    have counts : (fun entry : String × Nat => if entry.1 == reason then (reason, entry.2 + 1) else entry) =
        fun entry => (entry.1, if entry.1 = reason then entry.2 + 1 else entry.2) := by
      funext entry
      by_cases here : entry.1 = reason
      · simp [here]
      · simp [here]
    rw [counts, lookup_map_value fun name number => if name = reason then number + 1 else number]
    rcases List.any_eq_true.mp known with ⟨entry, member, same⟩
    cases found : skipped.lookup other with
    | none =>
      have apart := List.lookup_eq_none_iff.mp found entry member
      have different : Not (other = reason) := by
        rintro rfl
        simp [eq_of_beq same] at apart
      simp [different]
    | some number =>
      by_cases asked : other = reason
      · simp [asked]
      · simp [asked]
  · rename_i unknown
    rw [List.lookup_append]
    by_cases asked : other = reason
    · subst asked
      have absent : skipped.lookup other = none := by
        refine List.lookup_eq_none_iff.mpr fun entry member => ?_
        rw [Bool.not_eq_true, List.any_eq_false] at unknown
        have different := unknown entry member
        simp only [beq_iff_eq] at different
        exact bne_iff_ne.mpr (Ne.symm different)
      simp [absent]
    · have single : List.lookup other [(reason, 1)] = none := by
        rw [List.lookup_cons, beq_false_of_ne asked]
        rfl
      simp [single, asked]

def weight (reason : String) : Int :=
  if Reserved reason then 1 else 0

theorem weight_nonneg (reason : String) : 0 ≤ weight reason := by
  unfold weight
  split <;> decide

theorem weight_eq_zero : weight reason = 0 <-> ¬ Reserved reason := by
  unfold weight
  split <;> simp [*]

theorem surplus_countSkip :
    surplus progress (countSkip reason skipped) = surplus progress skipped - weight reason := by
  unfold surplus bucketed weight Reserved
  rw [skippedCount_countSkip, skippedCount_countSkip]
  by_cases dropped : reason = "redact_dropped"
  · subst dropped
    simp
    omega
  · by_cases halted : reason = "budget_halted"
    · subst halted
      simp
      omega
    · simp [dropped, halted, Ne.symm dropped, Ne.symm halted]

end Surplus

/-! ## The surplus through one item -/

section Items

variable {settings : Settings} {around : Surroundings} {job : Job Cursor} {visit : Visit}
variable {state : RunState Cursor} {level : Int} {raised : Thrown -> RunState Cursor -> Prop}

def At (level : Int) (now : RunState Cursor) : Prop :=
  surplus now.progress now.skipped = level

theorem at_skip (reason : String) :
    Ensures (At level) (skip reason : Running Cursor PUnit) (fun _ => At (level - weight reason)) raised :=
  ensures_modify fun _ here => surplus_countSkip.trans (congrArg (· - weight reason) here)

theorem at_modify {change : RunState Cursor -> RunState Cursor}
    (progress : ∀ now, (change now).progress = now.progress)
    (skipped : ∀ now, (change now).skipped = now.skipped) :
    Ensures (At level) (modify change) (fun _ => At level) raised := by
  refine ensures_modify fun now here => ?_
  unfold At
  rw [progress, skipped]
  exact here

theorem keeps_counters (kept : JobProgress -> List (String × Nat) -> Prop) :
    Program.Keeps (fun now => kept now.progress now.skipped) (maybeCheckpoint settings around job) := by
  unfold maybeCheckpoint
  split
  · refine Program.keeps_bind Program.keeps_get fun read => ?_
    refine Program.keeps_bind (Program.keeps_modify fun _ here => here) fun _ => ?_
    split
    · exact Program.keeps_pure _
    · refine Program.keeps_bind (Program.keeps_modify fun _ here => here) fun _ => ?_
      refine Program.keeps_bind ?_ fun _ => Program.keeps_modify fun _ here => here
      unfold writeCheckpoint
      split
      · exact Program.keeps_throw _
      · exact Program.keeps_modify fun _ here => here
  · exact Program.keeps_pure _

theorem at_maybeCheckpoint : Program.Keeps (At level) (maybeCheckpoint settings around job) :=
  keeps_counters fun progress skipped => surplus progress skipped = level

abbrev Buckets (level : Int) (program : Running Cursor Outcome) : Prop :=
  Ensures (At (level + 1)) program (fun _ => At level) (fun _ => At (level + 1))

theorem surplus_bucket (amount : Nat) {progress more : JobProgress} {skipped : List (String × Nat)}
    (discovered : more.discovered = progress.discovered)
    (bucket : bucketed more skipped = bucketed progress skipped + amount) :
    surplus more skipped = surplus progress skipped + -amount := by
  unfold surplus
  rw [discovered, bucket]
  omega

theorem at_count {change : JobProgress -> JobProgress} (amount : Nat)
    (discovered : ∀ progress, (change progress).discovered = progress.discovered)
    (bucket : ∀ progress skipped, bucketed (change progress) skipped = bucketed progress skipped + amount) :
    Ensures (At level) (count change : Running Cursor PUnit) (fun _ => At (level + -amount)) raised :=
  ensures_modify fun now here => (surplus_bucket amount (discovered now.progress)
    (bucket now.progress now.skipped)).trans (congrArg (· + -(amount : Int)) here)

theorem buckets_countError (thrown : Thrown) : Buckets level (countError thrown : Running Cursor Outcome) := by
  unfold countError
  split
  · refine ensures_bind _ (at_count 1 (fun _ => rfl) fun _ _ => ?_) fun _ => ?_
    · unfold bucketed
      dsimp only
      omega
    · exact ensures_pure fun now here => here.trans (by omega)
  · exact ensures_throw fun _ here => here

theorem buckets_store {body : String} {embedding : List Rat} :
    Buckets level (store job visit body embedding) := by
  unfold store
  split
  · exact buckets_countError _
  · refine ensures_bind (fun _ => At (level + 1)) (fun _ here => here) fun read => ?_
    split
    · refine ensures_bind _ (at_skip "skipped_existing") fun _ => ?_
      refine ensures_bind _ (at_count 1 (fun _ => rfl) fun _ _ => ?_) fun _ => ?_
      · unfold bucketed
        dsimp only
        omega
      · have unreserved : weight "skipped_existing" = 0 := by decide
        exact ensures_pure fun now here => here.trans (by omega)
    · refine ensures_bind _ (at_modify (fun _ => rfl) fun _ => rfl) fun _ => ?_
      split
      · exact buckets_countError _
      · refine ensures_bind _ (at_modify (fun _ => rfl) fun _ => rfl) fun _ => ?_
        refine ensures_bind _ (at_count 1 (fun _ => rfl) fun _ _ => ?_) fun _ => ?_
        · unfold bucketed
          dsimp only
          omega
        · exact ensures_pure fun now here => here.trans (by omega)

theorem buckets_processItem : Buckets level (processItem job visit) := by
  have still : ∀ {change : JobProgress -> JobProgress},
      (∀ progress, (change progress).discovered = progress.discovered) ->
      (∀ progress skipped, bucketed (change progress) skipped = bucketed progress skipped) ->
      Ensures (At (level + 1)) (count change : Running Cursor PUnit) (fun _ => At (level + 1))
        (fun _ => At (level + 1)) := by
    exact fun discovered same => Ensures.weaken (at_count 0 discovered same) (fun _ here => here)
      (fun _ _ here => here.trans (Int.add_zero _)) fun _ _ here => here
  unfold processItem
  refine ensures_bind (fun _ => At (level + 1)) (fun _ here => here) fun read => ?_
  dsimp only
  split
  · have reserved : weight "budget_halted" = 1 := by decide
    refine ensures_bind _ (at_skip "budget_halted") fun _ => ensures_pure fun now here => ?_
    exact here.trans (by omega)
  · split
    · have reserved : weight "redact_dropped" = 1 := by decide
      refine ensures_bind _ (at_skip "redact_dropped") fun _ => ensures_pure fun now here => ?_
      exact here.trans (by omega)
    · exact buckets_countError _
    · refine ensures_bind _ (still (fun _ => rfl) fun _ _ => rfl) fun _ => ?_
      unfold embedAndStore
      split
      · exact buckets_countError _
      · exact ensures_bind _ (still (fun _ => rfl) fun _ _ => rfl) fun _ => buckets_store

def Passes (settings : Settings) (around : Surroundings) (job : Job Cursor)
    (state : RunState Cursor) (visit : Visit) : Prop :=
  course settings job state visit = .stops ∨
    (course settings job state visit = .goesOn ∧ checkpointRaises settings around state 0 = none)

def Refused (settings : Settings) (around : Surroundings) (job : Job Cursor)
    (state : RunState Cursor) (visit : Visit) (raised : Thrown) : Prop :=
  course settings job state visit = .goesOn ∧ checkpointRaises settings around state 0 = some raised

theorem at_checkpointed (courses : course settings job state visit = .goesOn) :
    Ensures (fun now => Underway state 0 now ∧ At level now)
      (do maybeCheckpoint settings around job; pure Signal.next)
      (fun _ now => At level now ∧ Passes settings around job state visit)
      (fun raised now => At level now ∧ Refused settings around job state visit raised) := by
  refine ensures_bind _ (Ensures.weaken (Ensures.and ensures_maybeCheckpoint at_maybeCheckpoint)
    (fun _ both => both) ?_ ?_) fun _ => ensures_pure fun _ passed => passed
  · exact fun _ now passed => ⟨passed.2, .inr ⟨courses, passed.1.1⟩⟩
  · exact fun raised now refused => ⟨refused.2, courses, refused.1.1⟩

theorem at_concludeErrored (kept : visit.answers.filter = .ok .keep) (wet : job.dryRun = false) :
    Ensures (fun now => Processed job state visit .errored now ∧ At level now)
      (concludeItem settings around job visit.item .errored)
      (fun _ now => At level now ∧ Passes settings around job state visit)
      (fun raised now => At level now ∧ Refused settings around job state visit raised) := by
  refine ensures_bind (fun (read : RunState Cursor) now => (Underway state 0 now ∧ At level now) ∧
      course settings job state visit = if maybeAbort settings read.progress then .stops else .goesOn)
    (fun now both => and_right_comm.mp ⟨course_erred both.1 kept wet, both.2⟩) fun read =>
    ensures_of_fact fun courses => ?_
  split
  case isTrue aborts =>
    rw [if_pos aborts] at courses
    refine ensures_bind (fun _ => At level) (ensures_modify fun now underway => underway.2) fun _ => ?_
    exact ensures_pure fun now here => ⟨here, .inl courses⟩
  case isFalse tolerated =>
    rw [if_neg tolerated] at courses
    exact at_checkpointed courses

theorem at_concludeItem (kept : visit.answers.filter = .ok .keep) (wet : job.dryRun = false)
    (outcome : Outcome) : Ensures (fun now => Processed job state visit outcome now ∧ At level now)
      (concludeItem settings around job visit.item outcome)
      (fun _ now => At level now ∧ Passes settings around job state visit)
      (fun raised now => At level now ∧ Refused settings around job state visit raised) := by
  cases outcome with
  | errored => exact at_concludeErrored kept wet
  | budgetHalt =>
    refine ensures_bind (fun _ now => At level now ∧ course settings job state visit = .stops)
      (ensures_modify ?_) fun _ => ensures_pure fun now halted => ⟨halted.1, .inl halted.2⟩
    rintro now ⟨⟨spent, -, -⟩ | ⟨-, -, impossible⟩, here⟩
    · exact ⟨here, by rw [course_kept kept wet, if_pos spent]⟩
    · exact impossible.elim
  | stored =>
    have goesOn : ∀ now, Processed job state visit .stored now ∧ At level now ->
        (Underway state 0 now ∧ At level now) ∧ course settings job state visit = .goesOn :=
      fun now both => and_right_comm.mp ⟨Processed.course both.1 kept wet (.inl rfl), both.2⟩
    refine ensures_from goesOn fun courses => ?_
    exact ensures_bind _ (ensures_modify fun now both => ⟨both.1.passing _, both.2⟩) fun _ =>
      at_checkpointed courses
  | dropped =>
    exact ensures_from (fun now both =>
      and_right_comm.mp ⟨Processed.course both.1 kept wet (.inr rfl), both.2⟩) at_checkpointed

def filterWeight (answers : Answers) : Int :=
  (filterReason answers).elim 0 weight

def LeftAt (settings : Settings) (around : Surroundings) (job : Job Cursor)
    (state : RunState Cursor) (visit : Visit) (level : Int) (raised : Thrown) (now : RunState Cursor) :
    Prop :=
  (visit.answers.filter = .error raised ∧ At (level + 1) now) ∨
    (course settings job state visit = .raises raised ∧ raised.isException = false ∧
      At (level + 1) now) ∨
    (Refused settings around job state visit raised ∧ At (level - filterWeight visit.answers) now)

theorem at_attemptItem (wet : job.dryRun = false) :
    Ensures (fun now => AtGate state now ∧ At (level + 1) now) (attemptItem settings around job visit)
      (fun _ now => At (level - filterWeight visit.answers) now ∧ Passes settings around job state visit)
      (LeftAt settings around job state visit level) := by
  unfold attemptItem
  refine ensures_bind (fun verdict now => (AtGate state now ∧ At (level + 1) now) ∧
      visit.answers.filter = .ok verdict)
    (ensures_ofExcept (fun verdict answered now gate => ⟨gate, answered⟩)
      fun raised answered now gate => .inl ⟨answered, gate.2⟩) fun verdict =>
    ensures_of_fact fun answered => ?_
  cases verdict with
  | drop skipReason =>
    have courses : course settings job state visit = .goesOn := by simp [course, answered]
    have weighs : filterWeight visit.answers = weight (skipReason.getD "filtered") := by
      simp [filterWeight, filterReason, answered]
    rw [weighs]
    refine ensures_bind (fun _ now => Underway state 0 now ∧
        At (level + 1 - weight (skipReason.getD "filtered")) now)
      (ensures_modify fun now gate => ⟨gate.1.toUnderway.skipped _,
        surplus_countSkip.trans (congrArg (· - weight _) gate.2)⟩) fun _ => ?_
    refine ensures_bind (fun _ now => Underway state 0 now ∧
        At (level - weight (skipReason.getD "filtered")) now)
      (ensures_modify fun now gate => ⟨gate.1.counted rfl, ?_⟩) fun _ => ?_
    · have moved : surplus { now.progress with filteredOut := now.progress.filteredOut + 1 }
          now.skipped = surplus now.progress now.skipped + -1 :=
        surplus_bucket 1 rfl (by unfold bucketed; dsimp only; omega)
      have here : surplus now.progress now.skipped = _ := gate.2
      exact moved.trans (by omega)
    · refine Ensures.raise (at_checkpointed courses) ?_
      intro raised now refused
      rw [← weighs] at refused
      exact .inr (.inr ⟨refused.2, refused.1⟩)
  | keep =>
    have weighs : filterWeight visit.answers = 0 := by simp [filterWeight, filterReason, answered]
    have sampled : ∀ now : RunState Cursor, At (level + 1) now -> At (level + 1)
        (if now.sampleTitles.length < sampleLimit then
          { now with sampleTitles := now.sampleTitles ++ [visit.item.title] }
        else now) := by
      intro now here
      split <;> exact here
    refine ensures_bind (fun _ now => AtGate state now ∧ At (level + 1) now)
      (ensures_modify fun now gate => ⟨gate.1.sampled, sampled now gate.2⟩) fun _ => ?_
    split
    case isTrue dry =>
      rw [wet] at dry
      cases dry
    case isFalse real =>
      refine ensures_bind _ (Ensures.raise (Ensures.and ensures_processItem buckets_processItem) ?_)
        fun outcome => ?_
      · rintro raised now ⟨⟨under, met, other, _⟩, here⟩
        refine .inr (.inl ⟨?_, other, here⟩)
        simp [course_kept answered wet, under, met, courseOfFailure, other]
      · refine Ensures.weaken (at_concludeItem answered wet outcome) (fun _ both => both) ?_ ?_
        · intro _ now passed
          rw [weighs, Int.sub_zero]
          exact passed
        · intro raised now refused
          refine .inr (.inr ⟨refused.2, ?_⟩)
          rw [weighs, Int.sub_zero]
          exact refused.1

/-- The surplus is what it was exactly if the item is accountable. -/
def Settled (settings : Settings) (around : Surroundings) (job : Job Cursor)
    (state : RunState Cursor) (visit : Visit) (level : Int) (now : RunState Cursor) : Prop :=
  At level now <-> Accountable settings around job state visit

variable {now : RunState Cursor}

theorem at_reserved (here : At (level - filterWeight visit.answers) now) : At level now <->
      ∀ reason, filterReason visit.answers = some reason -> ¬ Reserved reason := by
  have level_ : surplus now.progress now.skipped = level - filterWeight visit.answers := here
  unfold At
  rw [level_]
  unfold filterWeight
  cases filterReason visit.answers with
  | none => simp
  | some reason =>
    have unreserved : weight reason = 0 <-> ¬ Reserved reason := weight_eq_zero
    simp only [Option.elim_some, Option.some.injEq, forall_eq']
    rw [← unreserved]
    omega

theorem settled_of_passes (here : At (level - filterWeight visit.answers) now)
    (passes : Passes settings around job state visit) :
    Settled settings around job state visit level now := by
  unfold Settled Accountable
  rw [at_reserved here]
  refine (and_iff_left ?_).symm
  rcases passes with courses | ⟨courses, none_⟩
  · rw [courses]
    trivial
  · rw [courses]
    intro reason
    rw [none_]
    exact Option.some_ne_none _ ∘ Eq.symm

theorem not_settled {other : Int} (here : At other now) (apart : other ≠ level)
    (blamed : ¬ Accountable settings around job state visit) :
    Settled settings around job state visit level now :=
  iff_of_false (fun same => apart (here.symm.trans same)) blamed

theorem at_skipItem (raised : Thrown) :
    Program.Reaches (LeftAt settings around job state visit level raised)
      (Settled settings around job state visit level) (skipItem settings around job raised) := by
  have passed_on : (∀ reason, raised ≠ .skipped reason) -> ∀ now,
      LeftAt settings around job state visit level raised now ->
        Settled settings around job state visit level now := by
    intro other now left
    rcases left with ⟨answered, here⟩ | ⟨courses, _, here⟩ | ⟨⟨courses, refused⟩, here⟩
    · refine not_settled here (by omega) fun accountable => ?_
      have raises : course settings job state visit = .raises raised := by
        cases raised with
        | skipped reason => exact absurd rfl (other reason)
        | _ => simp [course, answered]
      have nothing := accountable.2
      rw [raises] at nothing
      exact nothing
    · refine not_settled here (by omega) fun accountable => ?_
      have nothing := accountable.2
      rw [courses] at nothing
      exact nothing
    · unfold Settled Accountable
      rw [at_reserved here]
      refine (and_iff_left ?_).symm
      rw [courses]
      intro reason same
      rw [refused] at same
      exact other reason (Option.some_inj.mp same)
  cases raised with
  | secretDetected | exception error | cancelled =>
    exact ensures_throw (passed_on fun _ same => by cases same)
  | skipped reason =>
    have counts : ∀ other, Ensures (At other) (skipItem settings around job (.skipped reason))
        (fun _ => At (other - weight reason - 1)) (fun _ => At (other - weight reason - 1)) := by
      intro other
      refine ensures_bind _ (at_skip reason) fun _ => ?_
      refine ensures_bind _ (at_count 1 (fun _ => rfl) fun _ _ => ?_) fun _ => ?_
      · unfold bucketed
        dsimp only
        omega
      · exact ensures_bind _ at_maybeCheckpoint fun _ => ensures_pure fun _ here => here
    rintro now (⟨answered, here⟩ | ⟨_, exception, _⟩ | ⟨⟨courses, refused⟩, here⟩)
    · have weighs : filterWeight visit.answers = weight reason := by
        simp [filterWeight, filterReason, answered]
      have settles : ∀ later : RunState Cursor, At (level + 1 - weight reason - 1) later ->
          Settled settings around job state visit level later := by
        intro later there
        have courses : course settings job state visit = .caught := by simp [course, answered]
        have there : At (level - filterWeight visit.answers) later :=
          there.trans (by rw [weighs]; omega)
        unfold Settled Accountable
        rw [at_reserved there, courses]
        exact (and_iff_left trivial).symm
      exact Ensures.weaken (counts _) (fun _ here => here) (fun _ => settles) (fun _ => settles) now here
    · cases exception
    · have settles : ∀ later : RunState Cursor,
          At (level - filterWeight visit.answers - weight reason - 1) later ->
          Settled settings around job state visit level later := by
        intro later there
        have positive := weight_nonneg reason
        have positiveToo : 0 ≤ filterWeight visit.answers := by
          unfold filterWeight
          cases filterReason visit.answers with
          | none => exact le_refl 0
          | some other => exact weight_nonneg other
        refine not_settled there (by omega) fun accountable => ?_
        have nothing := accountable.2
        rw [courses] at nothing
        exact nothing reason refused
      exact Ensures.weaken (counts _) (fun _ here => here) (fun _ => settles) (fun _ => settles) now here

theorem at_visitItem (wet : job.dryRun = false) (state : RunState Cursor) :
    Program.Reaches (fun now => now = state)
      (Settled settings around job state visit (surplus state.progress state.skipped))
      (visitItem settings around job visit) := by
  refine ensures_bind (fun _ now => AtGate state now ∧ At (surplus state.progress state.skipped + 1) now)
    (ensures_modify ?_) fun _ => ensures_tryCatch (Ensures.weaken (at_attemptItem wet) (fun _ gate => gate)
      (fun _ now passed => settled_of_passes passed.1 passed.2) fun _ _ left => left) at_skipItem
  rintro now rfl
  refine ⟨⟨⟨⟨⟨⟨rfl, rfl, rfl, rfl⟩, rfl, rfl, rfl, rfl, rfl⟩, rfl⟩, rfl⟩, rfl⟩, ?_⟩
  unfold At surplus bucketed
  dsimp only
  omega

/-! ## Tokens and checkpoints of one item -/

def JobRow.counters (row : JobRow Cursor) : JobProgress × List (String × Nat) :=
  (row.progress, row.skipped)

variable {counters : Option (JobProgress × List (String × Nat))}

structure Unwritten (job : Job Cursor) (counters : Option (JobProgress × List (String × Nat)))
    (now : RunState Cursor) : Prop where
  tokens : now.progress.tokensConsumed < job.tokenBudget
  row : now.row.map JobRow.counters = counters

structure Written (job : Job Cursor) (counters : Option (JobProgress × List (String × Nat)))
    (now : RunState Cursor) : Prop where
  tokens : now.progress.tokensConsumed < job.tokenBudget
  row : now.row.map JobRow.counters = counters ∨
    now.row.map JobRow.counters = some (now.progress, now.skipped)

theorem Unwritten.written (unwritten : Unwritten job counters now) : Written job counters now :=
  ⟨unwritten.tokens, .inl unwritten.row⟩

theorem unwritten_modify {change : RunState Cursor -> RunState Cursor}
    (tokens : ∀ now, (change now).progress.tokensConsumed = now.progress.tokensConsumed)
    (row : ∀ now, (change now).row = now.row) :
    Program.Keeps (Unwritten job counters) (modify change : Running Cursor PUnit) := by
  refine Program.keeps_modify fun now unwritten => ⟨?_, ?_⟩
  · rw [tokens]
    exact unwritten.tokens
  · rw [row]
    exact unwritten.row

theorem unwritten_countError (thrown : Thrown) :
    Program.Keeps (Unwritten job counters) (countError thrown : Running Cursor Outcome) := by
  unfold countError
  split
  · exact Program.keeps_bind (unwritten_modify (fun _ => rfl) fun _ => rfl) fun _ => Program.keeps_pure _
  · exact Program.keeps_throw _

theorem unwritten_store {body : String} {embedding : List Rat} :
    Program.Keeps (Unwritten job counters) (store job visit body embedding) := by
  unfold store
  split
  · exact unwritten_countError _
  · refine Program.keeps_bind Program.keeps_get fun read => ?_
    split
    · refine Program.keeps_bind (unwritten_modify (fun _ => rfl) fun _ => rfl) fun _ => ?_
      exact Program.keeps_bind (unwritten_modify (fun _ => rfl) fun _ => rfl) fun _ =>
        Program.keeps_pure _
    · refine Program.keeps_bind (unwritten_modify (fun _ => rfl) fun _ => rfl) fun _ => ?_
      split
      · exact unwritten_countError _
      · refine Program.keeps_bind (unwritten_modify (fun _ => rfl) fun _ => rfl) fun _ => ?_
        exact Program.keeps_bind (unwritten_modify (fun _ => rfl) fun _ => rfl) fun _ =>
          Program.keeps_pure _

theorem unwritten_processItem : Program.Keeps (Unwritten job counters) (processItem job visit) := by
  unfold processItem
  refine ensures_bind _ ensures_get fun read => ?_
  dsimp only
  have same : ∀ now, Unwritten job counters now ∧ read = now -> Unwritten job counters now :=
    fun _ both => both.1
  split
  · refine Ensures.start ?_ same
    exact Program.keeps_bind (unwritten_modify (fun _ => rfl) fun _ => rfl) fun _ => Program.keeps_pure _
  · rename_i under
    split
    · refine Ensures.start ?_ same
      exact Program.keeps_bind (unwritten_modify (fun _ => rfl) fun _ => rfl) fun _ => Program.keeps_pure _
    · exact Ensures.start (unwritten_countError _) same
    · refine ensures_bind (fun _ => Unwritten job counters) (ensures_modify ?_) fun _ => ?_
      · rintro now ⟨unwritten, rfl⟩
        exact ⟨Nat.lt_of_not_le under, unwritten.row⟩
      · unfold embedAndStore
        split
        · exact unwritten_countError _
        · exact Program.keeps_bind (unwritten_modify (fun _ => rfl) fun _ => rfl) fun _ => unwritten_store

abbrev Writes (job : Job Cursor) (counters : Option (JobProgress × List (String × Nat)))
    (program : Running Cursor Signal) : Prop :=
  Ensures (Unwritten job counters) program (fun _ => Written job counters)
    (fun _ => Unwritten job counters)

theorem written_checkpointed :
    Writes job counters (do maybeCheckpoint settings around job; pure Signal.next) := by
  have passed : Ensures (Unwritten job counters) (maybeCheckpoint settings around job)
      (fun _ => Written job counters) (fun _ => Unwritten job counters) := by
    unfold maybeCheckpoint
    split
    · refine ensures_bind _ Program.keeps_get fun read => ?_
      refine ensures_bind _ (unwritten_modify (fun _ => rfl) fun _ => rfl) fun _ => ?_
      split
      · exact ensures_pure fun _ unwritten => unwritten.written
      · refine ensures_bind _ (unwritten_modify (fun _ => rfl) fun _ => rfl) fun _ => ?_
        refine ensures_bind (fun _ => Written job counters) ?_ fun _ =>
          ensures_modify fun _ written => ⟨written.tokens, written.row⟩
        unfold writeCheckpoint
        split
        · exact ensures_throw fun _ unwritten => unwritten
        · refine ensures_modify fun now unwritten => ⟨unwritten.tokens, ?_⟩
          cases there : now.row with
          | none => exact .inl ((congrArg _ there).symm.trans unwritten.row)
          | some row => exact .inr rfl
    · exact ensures_pure fun _ unwritten => unwritten.written
  exact ensures_bind _ passed fun _ => ensures_pure fun _ written => written

theorem written_concludeItem (item : BackfillItem) (outcome : Outcome) :
    Writes job counters (concludeItem settings around job item outcome) := by
  cases outcome with
  | budgetHalt =>
    exact ensures_bind _ (unwritten_modify (fun _ => rfl) fun _ => rfl) fun _ =>
      ensures_pure fun _ unwritten => unwritten.written
  | errored =>
    refine ensures_bind _ Program.keeps_get fun read => ?_
    split
    · exact ensures_bind _ (unwritten_modify (fun _ => rfl) fun _ => rfl) fun _ =>
        ensures_pure fun _ unwritten => unwritten.written
    · exact written_checkpointed
  | stored =>
    exact ensures_bind _ (unwritten_modify (fun _ => rfl) fun _ => rfl) fun _ => written_checkpointed
  | dropped => exact written_checkpointed

theorem written_attemptItem (wet : job.dryRun = false) :
    Writes job counters (attemptItem settings around job visit) := by
  unfold attemptItem
  refine ensures_bind _ (Program.keeps_ofExcept _) fun verdict => ?_
  cases verdict with
  | drop skipReason =>
    refine ensures_bind _ (unwritten_modify (fun _ => rfl) fun _ => rfl) fun _ => ?_
    exact ensures_bind _ (unwritten_modify (fun _ => rfl) fun _ => rfl) fun _ => written_checkpointed
  | keep =>
    refine ensures_bind _ (unwritten_modify ?_ ?_) fun _ => ?_
    · exact fun now => by split <;> rfl
    · exact fun now => by split <;> rfl
    · split
      case isTrue dry =>
        rw [wet] at dry
        cases dry
      case isFalse real =>
        exact ensures_bind _ unwritten_processItem fun outcome => written_concludeItem visit.item outcome

theorem written_visitItem (wet : job.dryRun = false) :
    Writes job counters (visitItem settings around job visit) := by
  refine ensures_bind _ (unwritten_modify (fun _ => rfl) fun _ => rfl) fun _ =>
    ensures_tryCatch (written_attemptItem wet) fun thrown => ?_
  cases thrown with
  | skipped reason =>
    refine ensures_bind _ (unwritten_modify (fun _ => rfl) fun _ => rfl) fun _ => ?_
    exact ensures_bind _ (unwritten_modify (fun _ => rfl) fun _ => rfl) fun _ => written_checkpointed
  | secretDetected | exception error | cancelled => exact ensures_throw fun _ unwritten => unwritten

end Items

/-! ## The visits of a loop -/

section Loop

variable {settings : Settings} {around : Surroundings} {job : Job Cursor}
variable {state : RunState Cursor} {visit : Visit}

/-- The state and its row are balanced. -/
structure Clear (job : Job Cursor) (now : RunState Cursor) : Prop where
  counters : Balanced job.tokenBudget now.progress now.skipped
  row : ∀ row, now.row = some row -> Balanced job.tokenBudget row.progress row.skipped

theorem visit_written (wet : job.dryRun = false) (clear : Clear job state) :
    Written job (state.row.map JobRow.counters)
      ((visitItem settings around job visit).run.run state).2 := by
  refine Ensures.after (Ensures.raise (written_visitItem wet)
    fun _ _ unwritten => unwritten.written) ?_
  exact ⟨clear.counters.tokens, rfl⟩

theorem visit_balanced_iff (wet : job.dryRun = false) (clear : Clear job state) :
    Balanced job.tokenBudget ((visitItem settings around job visit).run.run state).2.progress
        ((visitItem settings around job visit).run.run state).2.skipped <->
      Accountable settings around job state visit := by
  have settled : Settled settings around job state visit (surplus state.progress state.skipped)
      ((visitItem settings around job visit).run.run state).2 := Ensures.after (at_visitItem wet state) rfl
  rw [surplus_eq_zero.mpr clear.counters.discovered] at settled
  refine Iff.trans ?_ settled
  constructor
  · exact fun balanced => surplus_eq_zero.mpr balanced.discovered
  · exact fun here => ⟨surplus_eq_zero.mp here, (visit_written wet clear).tokens⟩

theorem visit_clear (wet : job.dryRun = false) (clear : Clear job state)
    (balanced : Balanced job.tokenBudget ((visitItem settings around job visit).run.run state).2.progress
      ((visitItem settings around job visit).run.run state).2.skipped) :
    Clear job ((visitItem settings around job visit).run.run state).2 where
  counters := balanced
  row := by
    intro row there
    have written := (visit_written wet clear : Written job (state.row.map JobRow.counters)
      ((visitItem settings around job visit).run.run state).2).row
    rw [there] at written
    rcases written with same | now
    · rcases Option.map_eq_some_iff.mp same.symm with ⟨before, known, counters⟩
      have progress : before.progress = row.progress := congrArg Prod.fst counters
      have skipped : before.skipped = row.skipped := congrArg Prod.snd counters
      rw [← progress, ← skipped]
      exact clear.row before known
    · have progress : row.progress = _ := congrArg Prod.fst (Option.some_inj.mp now)
      have skipped : row.skipped = _ := congrArg Prod.snd (Option.some_inj.mp now)
      rw [progress, skipped]
      exact balanced

theorem visited_cons (visit : Visit) (rest : List Visit) (state : RunState Cursor) :
    visited settings around job (visit :: rest) state =
      { visit, before := state, after := ((visitItem settings around job visit).run.run state).2 } ::
        match ((visitItem settings around job visit).run.run state).1 with
        | .ok .next => visited settings around job rest
            ((visitItem settings around job visit).run.run state).2
        | _ => [] :=
  rfl

/-- Induction on the visits: as long as every item is accountable the loop goes on from
a balanced state. -/
theorem visited_balanced_iff (wet : job.dryRun = false) (visits : List Visit)
    (clear : Clear job state) : (∀ made ∈ visited settings around job visits state,
        Balanced job.tokenBudget made.after.progress made.after.skipped) <->
      ∀ made ∈ visited settings around job visits state,
        Accountable settings around job made.before made.visit := by
  induction visits generalizing state with
  | nil => exact iff_of_true (fun _ absent => nomatch absent) fun _ absent => nomatch absent
  | cons visit rest ih =>
    rw [visited_cons, List.forall_mem_cons, List.forall_mem_cons, visit_balanced_iff wet clear]
    refine and_congr_right fun accountable => ?_
    split
    · refine ih (visit_clear wet clear ?_)
      exact (visit_balanced_iff wet clear).mpr accountable
    · exact iff_of_true (fun _ absent => nomatch absent) fun _ absent => nomatch absent

theorem visited_clear (wet : job.dryRun = false) (visits : List Visit) (clear : Clear job state)
    (accountable : ∀ made ∈ visited settings around job visits state,
      Accountable settings around job made.before made.visit) :
    (∀ made ∈ visited settings around job visits state, Clear job made.after) ∧
      Clear job ((loop settings around job visits).run.run state).2 := by
  induction visits generalizing state with
  | nil =>
    refine ⟨fun _ absent => (nomatch absent), ?_⟩
    unfold loop
    split <;> exact clear
  | cons visit rest ih =>
    rw [visited_cons, List.forall_mem_cons] at accountable
    rw [visited_cons, List.forall_mem_cons]
    have passed := visit_clear wet clear ((visit_balanced_iff wet clear).mpr accountable.1)
    rcases ran : (visitItem settings around job visit).run.run state with ⟨answer, after⟩
    rw [ran] at accountable passed
    unfold loop
    cases answer with
    | error thrown =>
      rw [run_bind_error ran]
      exact ⟨⟨passed, fun _ absent => nomatch absent⟩, passed⟩
    | ok signal =>
      rw [run_bind_ok ran]
      cases signal with
      | stop => exact ⟨⟨passed, fun _ absent => nomatch absent⟩, passed⟩
      | next =>
        have later := ih passed accountable.2
        exact ⟨⟨passed, later.1⟩, later.2⟩

end Loop

/-! ## The last block -/

section LastBlock

variable {settings : Settings} {around : Surroundings} {job : Job Cursor}

theorem skippedCount_foldArchived (archived : Nat) (skipped : List (String × Nat)) {reason : String}
    (other : reason ≠ "archived") :
    skippedCount reason (foldArchived archived skipped) = skippedCount reason skipped := by
  unfold foldArchived
  split
  · rfl
  · have kept : ∀ entries : List (String × Nat),
        (entries.filter fun entry => entry.1 != "archived").lookup reason = entries.lookup reason := by
      intro entries
      induction entries with
      | nil => rfl
      | cons entry rest ih =>
        rw [List.filter_cons]
        split
        · rw [List.lookup_cons, List.lookup_cons, ih]
        · rename_i archived_
          have named : entry.1 = "archived" := by simpa using archived_
          rw [List.lookup_cons, named, beq_false_of_ne other, ih]
    have single : ∀ number : Nat, List.lookup reason [("archived", number)] = none := by
      intro number
      rw [List.lookup_cons, beq_false_of_ne other]
      rfl
    unfold skippedCount
    dsimp only
    rw [List.lookup_append, kept, single, Option.or_none]

theorem clear_fold {now : RunState Cursor} (clear : Clear job now) :
    Clear job { now with skipped := foldArchived job.archivedChannels now.skipped } where
  counters := by
    refine ⟨?_, clear.counters.tokens⟩
    unfold bucketed
    rw [skippedCount_foldArchived _ _ (by decide), skippedCount_foldArchived _ _ (by decide)]
    exact clear.counters.discovered
  row := clear.row

theorem clear_tearDown : Program.Keeps (Clear job) (tearDown around) := by
  unfold tearDown
  split
  · exact Program.keeps_pure _
  · split
    · refine Program.keeps_bind (Program.keeps_modify fun now clear => ?_) fun _ => Program.keeps_pure _
      split
      · exact ⟨clear.counters, clear.row⟩
      · exact clear
    · exact Program.keeps_throw _

theorem clear_writeCheckpoint (answer : Option Thrown) :
    Program.Keeps (Clear job) (writeCheckpoint job answer) := by
  unfold writeCheckpoint
  split
  · exact Program.keeps_throw _
  · refine Program.keeps_modify fun now clear => ⟨clear.counters, fun row there => ?_⟩
    rcases Option.map_eq_some_iff.mp there with ⟨before, _, rfl⟩
    exact clear.counters

theorem clear_finish (answer : Option Thrown) : Program.Keeps (Clear job) (finish answer) := by
  unfold finish
  split
  · exact Program.keeps_throw _
  · refine Program.keeps_modify fun now clear => ⟨clear.counters, fun row there => ?_⟩
    rcases Option.map_eq_some_iff.mp there with ⟨before, known, rfl⟩
    exact clear.row before known

theorem clear_lastBlock : Program.Keeps (Clear job) (lastBlock settings around job) := by
  unfold lastBlock
  refine Program.keeps_bind (Program.keeps_modify fun _ clear => clear_fold clear) fun _ => ?_
  refine Program.keeps_bind clear_tearDown fun teardownError => ?_
  have ends : ∀ last : Running Cursor PUnit, Program.Keeps (Clear job) last ->
      Program.Keeps (Clear job) (do
        if settings.checkpointer then
          writeCheckpoint job around.finalCheckpoint
          finish around.finish
        last) := by
    intro last keeps
    split
    · refine Program.keeps_bind (clear_writeCheckpoint _) fun _ => ?_
      exact Program.keeps_bind (clear_finish _) fun _ => keeps
    · exact keeps
  cases teardownError with
  | some thrown => exact ends _ (Program.keeps_throw _)
  | none => exact ends _ (Program.keeps_pure _)

theorem estimated_of_balanced (wet : job.dryRun = false) {now : RunState Cursor}
    (balanced : Balanced job.tokenBudget now.progress now.skipped) :
    (report job now).estimatedCount = now.progress.stored + now.progress.skippedExisting := by
  have discovered := balanced.discovered
  unfold bucketed skippedCount at discovered
  unfold report
  simp only [wet, Bool.false_eq_true, if_false]
  omega

theorem clear_finallyReport (wet : job.dryRun = false) (looped : Except Thrown Bool) :
    Ensures (Clear job) (finallyReport settings around job looped)
      (fun report now => Clear job now ∧
        report.estimatedCount = now.progress.stored + now.progress.skippedExisting)
      (fun _ => Clear job) := by
  unfold finallyReport
  refine ensures_bind (fun _ => Clear job) clear_lastBlock fun _ => ?_
  cases looped with
  | error thrown => exact ensures_throw fun _ clear => clear
  | ok exhausted =>
    refine ensures_bind _ ensures_get fun state => ensures_pure ?_
    rintro now ⟨clear, rfl⟩
    exact ⟨clear, estimated_of_balanced wet clear.counters⟩

end LastBlock

section Runs

variable {settings : Settings} {around : Surroundings} {job : Job Cursor}
variable {knowledge : List KnowledgeRow} {sources : List SourceRow}

theorem ran_unstarted
    (unstarted : loopStart settings around knowledge sources = (none : Option (RunState Cursor))) :
    (ran settings around job knowledge sources).2 = fresh knowledge sources ∧
      ∃ thrown, (ran settings around job knowledge sources).1 = .error thrown := by
  unfold loopStart at unstarted
  unfold ran run
  cases prepared : around.prepare with
  | some thrown => exact ⟨rfl, thrown, rfl⟩
  | none =>
    unfold startRow at unstarted ⊢
    cases wired : settings.checkpointer with
    | false =>
      rw [prepared, wired] at unstarted
      cases unstarted
    | true =>
      cases begins : around.start with
      | none =>
        rw [prepared, wired, begins] at unstarted
        cases unstarted
      | some thrown => exact ⟨rfl, thrown, rfl⟩

theorem ran_started {state : RunState Cursor}
    (started : loopStart settings around knowledge sources = some state) :
    ran settings around job knowledge sources = (finallyReport settings around job
        ((loop settings around job job.listing.visits).run.run state).1).run.run
          ((loop settings around job job.listing.visits).run.run state).2 := by
  unfold loopStart at started
  unfold ran run
  split at started
  · rename_i after prepared begins
    rw [prepared]
    dsimp only
    rw [run_bind_ok begins, run_bind_ok (run_attempt _ _)]
    cases started
    rfl
  · cases started

theorem clear_fresh (positive : 0 < job.tokenBudget) : Clear job (fresh knowledge sources) :=
  ⟨⟨rfl, positive⟩, fun _ absent => nomatch absent⟩

theorem clear_loopStart {state : RunState Cursor} (positive : 0 < job.tokenBudget)
    (started : loopStart settings around knowledge sources = some state) : Clear job state := by
  unfold loopStart startRow at started
  split at started
  · rename_i after prepared begins
    cases started
    cases wired : settings.checkpointer with
    | false =>
      rw [wired] at begins
      cases begins
      exact ⟨⟨rfl, positive⟩, fun _ absent => nomatch absent⟩
    | true =>
      rw [wired] at begins
      cases answered : around.start with
      | some thrown =>
        rw [answered] at begins
        cases begins
      | none =>
        rw [answered] at begins
        cases begins
        refine ⟨⟨rfl, positive⟩, fun row there => ?_⟩
        cases there
        exact ⟨rfl, positive⟩
  · cases started

/-- For a real run the counters add up everywhere exactly if there is a budget at all
and every item that is visited is accountable. -/
theorem accounts_iff (settings : Settings) (around : Surroundings) (job : Job Cursor)
    (knowledge : List KnowledgeRow) (sources : List SourceRow) (wet : job.dryRun = false) :
    Accounts settings around job knowledge sources <-> 0 < job.tokenBudget ∧
        ∀ made ∈ madeVisits settings around job knowledge sources,
          Accountable settings around job made.before made.visit := by
  constructor
  · intro accounts
    have positive : 0 < job.tokenBudget := Nat.lt_of_le_of_lt (Nat.zero_le _) accounts.last.tokens
    have visits := accounts.visits
    unfold madeVisits at visits ⊢
    refine ⟨positive, ?_⟩
    cases started : loopStart settings around knowledge sources with
    | none => exact fun _ absent => nomatch absent
    | some state =>
      rw [started] at visits
      exact (visited_balanced_iff wet _ (clear_loopStart positive started)).mp visits
  · rintro ⟨positive, accountable⟩
    cases started : loopStart settings around knowledge sources with
    | none =>
      have made : madeVisits settings around job knowledge sources = [] := by
        unfold madeVisits
        rw [started]
      have ⟨same, thrown, raised⟩ : (ran settings around job knowledge sources).2 =
          fresh knowledge sources ∧ ∃ thrown,
            (ran settings around job knowledge sources).1 = .error thrown :=
        ran_unstarted started
      have clear : Clear job (fresh knowledge sources) := clear_fresh positive
      refine ⟨?_, ?_, ?_, ?_, ?_⟩
      · rw [made]
        exact fun _ absent => nomatch absent
      · rw [made]
        exact fun _ _ absent => nomatch absent
      · rw [same]
        exact clear.counters
      · rw [same]
        exact clear.row
      · intro report returned
        cases raised.symm.trans returned
    | some state =>
      have made : madeVisits settings around job knowledge sources =
          visited settings around job job.listing.visits state := by
        unfold madeVisits
        rw [started]
      rw [made] at accountable
      have clear := visited_clear wet _ (clear_loopStart positive started) accountable
      have ends := (ran_started started).symm ▸ clear_finallyReport wet
        ((loop settings around job job.listing.visits).run.run state).1 _ clear.2
      have final : Clear job (ran settings around job knowledge sources).2 := by
        generalize ran settings around job knowledge sources = outcome at ends
        rcases outcome with ⟨result, after⟩
        cases result with
        | ok report => exact ends.1
        | error thrown => exact ends
      refine ⟨?_, ?_, final.counters, final.row, ?_⟩
      · rw [made]
        exact fun visit member => (clear.1 visit member).counters
      · rw [made]
        exact fun visit row member => (clear.1 visit member).row row
      · intro report returned
        generalize ran settings around job knowledge sources = outcome at ends returned
        rcases outcome with ⟨result, after⟩
        cases returned
        exact ends.2

end Runs

def plainVisit (nativeId : String) (answers : Answers) : Visit where
  item := {
    sourceKind := "slack_msg"
    sourceNativeId := nativeId
    sourceUri := ""
    sourceCreatedAt := 0
    sourceUpdatedAt := 0
    title := "note"
    body := "eight ch"
    author := none
    parentRef := none }
  answers := answers

def keptAnswers : Answers :=
  ⟨.ok .keep, .ok "eight ch", .ok [], none, none⟩

def threeItems (skipReason : Option String) : Job String where
  orgId := 1
  dryRun := false
  tokenBudget := 100
  listing := {
    visits := [plainVisit "a" keptAnswers, plainVisit "a" keptAnswers,
      plainVisit "b" { keptAnswers with filter := .ok (.drop skipReason) }]
    ending := none }
  cursorOf := BackfillItem.sourceNativeId
  archivedChannels := 0

theorem accounts_threeItems : Accounts wiredSettings calm (threeItems (some "acl_lock")) [] [] := by
  refine (accounts_iff wiredSettings calm (threeItems (some "acl_lock")) [] [] rfl).mpr ⟨by decide, ?_⟩
  decide +kernel

def failingFilter : Job String :=
  { threeItems none with
    listing := {
      visits := [plainVisit "a" { keptAnswers with filter := .error (.exception (.raised "KeyError" "id")) }]
      ending := none } }

/-- An item which the filter drops for the pipeline's own reason is in two buckets, and one
on which it fails is in none. -/
theorem counted_twice_or_never :
    Not (Accounts wiredSettings calm (threeItems (some "redact_dropped")) [] []) ∧
      Not (Accounts wiredSettings calm failingFilter [] []) := by
  constructor
  · intro accounts
    have discovered := accounts.last.discovered
    revert discovered
    decide +kernel
  · intro accounts
    have discovered := accounts.last.discovered
    revert discovered
    decide +kernel

end Backfill
end BreadMind
