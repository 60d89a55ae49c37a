import BreadMind.Backfill.Runner

namespace BreadMind
namespace Backfill

open Execution
open Execution.Program

/-!
# The status of a job that has ended

The last block decides the status from two flags.  An abort and a budget halt
set a flag, an exception that leaves the item loop sets none, so the row of a
job whose listing has failed reads `completed` unless the teardown fails too.
And the block converges only as far as it gets: a cancelled teardown, or a
statement of the block that raises, leaves the row `running`.

`Escapes` names every point at which something can leave the item loop, in
terms of what the collaborators answer and of the state before the item.
-/

variable {Cursor : Type}

/-! ## Where an item can raise -/

def storeFailure (job : Job Cursor) (state : RunState Cursor) (visit : Visit) : Option Thrown :=
  match visit.answers.insert with
  | some thrown => some thrown
  | none =>
    if state.knowledge.any (fun row => row.isFor job.orgId visit.item) then none
    else visit.answers.cite

def embedFailure (job : Job Cursor) (state : RunState Cursor) (visit : Visit) : Option Thrown :=
  match visit.answers.embed with
  | .error thrown => some thrown
  | .ok _ => storeFailure job state visit

/-- What stops the pipeline of an item; a secret drops the item instead. -/
def pipelineFailure (job : Job Cursor) (state : RunState Cursor) (visit : Visit) : Option Thrown :=
  match visit.answers.redact with
  | .error .secretDetected => none
  | .error thrown => some thrown
  | .ok _ => embedFailure job state visit

/-- How far an item gets before its checkpoint is asked for. -/
inductive Course where
  | stops
  | raises (thrown : Thrown)
  | goesOn
  | caught

def overBudget (job : Job Cursor) (state : RunState Cursor) (visit : Visit) : Prop :=
  job.tokenBudget ≤ state.progress.tokensConsumed + visit.item.body.length / 4

instance (job : Job Cursor) (state : RunState Cursor) (visit : Visit) :
    Decidable (overBudget job state visit) :=
  inferInstanceAs (Decidable (_ ≤ _))

def courseOfFailure (settings : Settings) (progress : JobProgress) (thrown : Thrown) : Course :=
  if thrown.isException then
    if maybeAbort settings
        { progress with discovered := progress.discovered + 1, errors := progress.errors + 1 }
    then .stops
    else .goesOn
  else .raises thrown

def course (settings : Settings) (job : Job Cursor) (state : RunState Cursor) (visit : Visit) :
    Course :=
  match visit.answers.filter with
  | .error (.skipped _) => .caught
  | .error thrown => .raises thrown
  | .ok (.drop _) => .goesOn
  | .ok .keep =>
    if job.dryRun then .goesOn
    else if overBudget job state visit then .stops
    else
      match pipelineFailure job state visit with
      | none => .goesOn
      | some thrown => courseOfFailure settings state.progress thrown

/-- What the checkpoint of an item raises when it has been asked `again` times before. -/
def checkpointRaises (settings : Settings) (around : Surroundings) (state : RunState Cursor)
    (again : Nat) : Option Thrown :=
  if settings.checkpointer then
    if state.progress.discovered + 1 - state.lastCpCount < settings.checkpointEveryN ∧
        around.clock (state.clockReads + again) - state.lastCpTime <
          settings.checkpointEverySeconds then
      none
    else around.checkpoint (state.checkpointWrites + again)
  else none

def itemRaises (settings : Settings) (around : Surroundings) (job : Job Cursor)
    (state : RunState Cursor) (visit : Visit) : Option Thrown :=
  match course settings job state visit with
  | .stops => none
  | .raises thrown => some thrown
  | .caught => checkpointRaises settings around state 0
  | .goesOn =>
    match checkpointRaises settings around state 0 with
    | some (.skipped _) => checkpointRaises settings around state 1
    | answer => answer

/-- Something leaves the item loop: `discover()` raises at its end, or the body
raises at an item that is reached. -/
inductive Escapes (settings : Settings) (around : Surroundings) (job : Job Cursor) :
    List Visit -> RunState Cursor -> Thrown -> Prop where
  | discover {state thrown} (ends : job.listing.ending = some thrown) :
      Escapes settings around job [] state thrown
  | body {visit rest state thrown} (raises : itemRaises settings around job state visit = some thrown) :
      Escapes settings around job (visit :: rest) state thrown
  | later {visit rest state after thrown}
      (passes : (visitItem settings around job visit).run.run state = (.ok .next, after))
      (escapes : Escapes settings around job rest after thrown) :
      Escapes settings around job (visit :: rest) state thrown

/-! ## What an item leaves alone -/

structure Kept (state now : RunState Cursor) : Prop where
  status : now.row.map JobRow.status = state.row.map JobRow.status
  budgetHit : now.budgetHit = state.budgetHit
  aborted : now.aborted = state.aborted
  errorMessage : now.errorMessage = state.errorMessage

structure Underway (state : RunState Cursor) (again : Nat) (now : RunState Cursor) : Prop
    extends Kept state now where
  discovered : now.progress.discovered = state.progress.discovered + 1
  lastCpCount : now.lastCpCount = state.lastCpCount
  lastCpTime : now.lastCpTime = state.lastCpTime
  clockReads : now.clockReads = state.clockReads + again
  checkpointWrites : now.checkpointWrites = state.checkpointWrites + again

structure InPipeline (state now : RunState Cursor) : Prop extends Underway state 0 now where
  errors : now.progress.errors = state.progress.errors

structure Unstored (state now : RunState Cursor) : Prop extends InPipeline state now where
  knowledge : now.knowledge = state.knowledge

structure AtGate (state now : RunState Cursor) : Prop extends Unstored state now where
  tokensConsumed : now.progress.tokensConsumed = state.progress.tokensConsumed

theorem Kept.refl (state : RunState Cursor) : Kept state state :=
  ⟨rfl, rfl, rfl, rfl⟩

theorem Kept.trans {first second third : RunState Cursor} (earlier : Kept first second)
    (later : Kept second third) : Kept first third :=
  ⟨later.status.trans earlier.status, later.budgetHit.trans earlier.budgetHit,
    later.aborted.trans earlier.aborted, later.errorMessage.trans earlier.errorMessage⟩

variable {state : RunState Cursor} {settings : Settings} {around : Surroundings}
variable {job : Job Cursor} {visit : Visit} {again : Nat}

variable {now : RunState Cursor}

theorem Underway.skipped (underway : Underway state again now)
    (skipped : List (String × Nat)) : Underway state again { now with skipped := skipped } :=
  { underway with }

variable {progress : JobProgress}

theorem Underway.counted (underway : Underway state again now)
    (same : progress.discovered = now.progress.discovered) :
    Underway state again { now with progress := progress } :=
  { underway with discovered := same.trans underway.discovered }

theorem InPipeline.knowing (pipeline : InPipeline state now)
    (knowledge : List KnowledgeRow) : InPipeline state { now with knowledge := knowledge } :=
  { pipeline with }

theorem InPipeline.citing (pipeline : InPipeline state now)
    (sources : List SourceRow) : InPipeline state { now with sources := sources } :=
  { pipeline with }

theorem Unstored.counted (unstored : Unstored state now)
    (discovered : progress.discovered = now.progress.discovered)
    (errors : progress.errors = now.progress.errors) :
    Unstored state { now with progress := progress } :=
  ⟨⟨unstored.toUnderway.counted discovered, errors.trans unstored.errors⟩, unstored.knowledge⟩

theorem Underway.passing (underway : Underway state again now)
    (lastItem : Option BackfillItem) : Underway state again { now with lastItem := lastItem } :=
  { underway with }

theorem AtGate.sampled (gate : AtGate state now) {title : String} : AtGate state
      (if now.sampleTitles.length < sampleLimit then
        { now with sampleTitles := now.sampleTitles ++ [title] }
      else now) := by
  split
  case isTrue more =>
    exact { gate with }
  case isFalse enough => exact gate

/-- How the pipeline ends, given the failure it meets. -/
def Attempted (failure : Option Thrown) (state : RunState Cursor) (outcome : Outcome)
    (now : RunState Cursor) : Prop :=
  Underway state 0 now ∧
    match outcome with
    | .errored =>
      (∃ thrown, failure = some thrown ∧ thrown.isException = true) ∧
        now.progress.errors = state.progress.errors + 1
    | .budgetHalt => False
    | .stored => failure = none
    | .dropped => failure = none

def Interrupted (failure : Option Thrown) (state : RunState Cursor) (raised : Thrown)
    (now : RunState Cursor) : Prop :=
  failure = some raised ∧ raised.isException = false ∧ Kept state now

theorem ensures_countError {thrown : Thrown} {failure : Option Thrown}
    (met : failure = some thrown) :
    Ensures (InPipeline state) (countError thrown) (Attempted failure state)
      (Interrupted failure state) := by
  unfold countError
  split
  case isTrue exception =>
    refine ensures_bind (fun _ now => Underway state 0 now ∧
      now.progress.errors = state.progress.errors + 1) (ensures_modify ?_) fun _ =>
      ensures_pure fun now counted => ⟨counted.1, ⟨thrown, met, exception⟩, counted.2⟩
    intro now pipeline
    exact ⟨pipeline.toUnderway.counted rfl, congrArg (· + 1) pipeline.errors⟩
  case isFalse other =>
    exact ensures_throw fun now pipeline => ⟨met, by simpa using other, pipeline.toKept⟩

theorem ensures_failed {thrown : Thrown} {failure : Option Thrown} (met : failure = some thrown) :
    Ensures (Unstored state) (countError thrown) (Attempted failure state)
      (Interrupted failure state) :=
  Ensures.start (ensures_countError met) (fun _ unstored => unstored.toInPipeline)

theorem ensures_read_knowledge {raised : Thrown -> RunState Cursor -> Prop} :
    Ensures (Unstored state) get
      (fun read now => Unstored state now ∧ read.knowledge = state.knowledge) raised :=
  fun _ unstored => ⟨unstored, unstored.knowledge⟩

theorem ensures_store {body : String} {embedding : List Rat} :
    Ensures (Unstored state) (store job visit body embedding)
      (Attempted (storeFailure job state visit) state)
      (Interrupted (storeFailure job state visit) state) := by
  unfold store
  split
  case h_1 thrown failed =>
    have met : storeFailure job state visit = some thrown := by simp [storeFailure, failed]
    exact ensures_failed met
  case h_2 inserted =>
    refine ensures_bind _ ensures_read_knowledge fun read => ensures_of_fact fun same => ?_
    rw [same]
    split
    case isTrue held =>
      have met : storeFailure job state visit = none := by simp [storeFailure, inserted, held]
      refine ensures_bind (fun _ => Underway state 0)
        (ensures_modify fun now unstored => unstored.toUnderway.skipped _) fun _ => ?_
      refine ensures_bind (fun _ => Underway state 0)
        (ensures_modify fun now underway => underway.counted rfl) fun _ => ?_
      exact ensures_pure fun now underway => ⟨underway, met⟩
    case isFalse fresh =>
      have met : storeFailure job state visit = visit.answers.cite := by
        simp [storeFailure, inserted, fresh]
      refine ensures_bind (fun _ => InPipeline state) (ensures_modify ?_) fun _ => ?_
      · exact fun now unstored => unstored.toInPipeline.knowing _
      split
      case h_1 thrown failed => exact ensures_countError (met.trans failed)
      case h_2 cited =>
        refine ensures_bind (fun _ => InPipeline state)
          (ensures_modify fun now pipeline => pipeline.citing _) fun _ => ?_
        refine ensures_bind (fun _ => Underway state 0)
          (ensures_modify fun now pipeline => pipeline.toUnderway.counted rfl) fun _ => ?_
        exact ensures_pure fun now underway => ⟨underway, met.trans cited⟩

theorem ensures_embedAndStore {body : String} :
    Ensures (Unstored state) (embedAndStore job visit body)
      (Attempted (embedFailure job state visit) state)
      (Interrupted (embedFailure job state visit) state) := by
  unfold embedAndStore
  split
  case h_1 thrown failed =>
    have met : embedFailure job state visit = some thrown := by simp [embedFailure, failed]
    exact ensures_failed met
  case h_2 embedding embedded =>
    have met : embedFailure job state visit = storeFailure job state visit := by
      simp [embedFailure, embedded]
    rw [met]
    exact ensures_bind (fun _ => Unstored state)
      (ensures_modify fun now unstored => unstored.counted rfl rfl) fun _ => ensures_store

def Processed (job : Job Cursor) (state : RunState Cursor) (visit : Visit) (outcome : Outcome)
    (now : RunState Cursor) : Prop :=
  (overBudget job state visit ∧ outcome = .budgetHalt ∧ Underway state 0 now) ∨
    (¬ overBudget job state visit ∧ Attempted (pipelineFailure job state visit) state outcome now)

theorem ensures_read_tokens {raised : Thrown -> RunState Cursor -> Prop} :
    Ensures (AtGate state) get (fun read now => AtGate state now ∧
        read.progress.tokensConsumed = state.progress.tokensConsumed) raised :=
  fun _ gate => ⟨gate, gate.tokensConsumed⟩

theorem ensures_processItem :
    Ensures (AtGate state) (processItem job visit) (Processed job state visit)
      (fun raised now => ¬ overBudget job state visit ∧
        Interrupted (pipelineFailure job state visit) state raised now) := by
  unfold processItem
  refine ensures_bind _ ensures_read_tokens fun read => ensures_of_fact fun same => ?_
  rw [same]
  dsimp only
  by_cases spent : job.tokenBudget ≤ state.progress.tokensConsumed + visit.item.body.length / 4
  case pos =>
    rw [if_pos spent]
    refine ensures_bind (fun _ => Underway state 0)
      (ensures_modify fun now gate => gate.toUnderway.skipped _) fun _ => ?_
    exact ensures_pure fun now underway => .inl ⟨spent, rfl, underway⟩
  case neg =>
    rw [if_neg spent]
    suffices pipeline : Ensures (Unstored state) _ (Attempted (pipelineFailure job state visit) state)
        (Interrupted (pipelineFailure job state visit) state) from
      Ensures.weaken pipeline (fun _ gate => gate.toUnstored)
        (fun _ _ attempted => .inr ⟨spent, attempted⟩) fun _ _ interrupted => ⟨spent, interrupted⟩
    split
    case h_1 secret =>
      have met : pipelineFailure job state visit = none := by simp [pipelineFailure, secret]
      refine ensures_bind (fun _ => Underway state 0)
        (ensures_modify fun now unstored => unstored.toUnderway.skipped _) fun _ => ?_
      exact ensures_pure fun now underway => ⟨underway, met⟩
    case h_2 thrown other failed =>
      have met : pipelineFailure job state visit = some thrown := by
        cases thrown <;> simp_all [pipelineFailure]
      exact ensures_failed met
    case h_3 body redacted =>
      have met : pipelineFailure job state visit = embedFailure job state visit := by
        simp [pipelineFailure, redacted]
      rw [met]
      exact ensures_bind (fun _ => Unstored state)
        (ensures_modify fun now unstored => unstored.counted rfl rfl) fun _ => ensures_embedAndStore

def Clocked (state : RunState Cursor) (again : Nat) (now : RunState Cursor) : Prop :=
  ∃ before, Underway state again before ∧
    now = { before with clockReads := before.clockReads + 1 }

theorem Clocked.kept (clocked : Clocked state again now) : Kept state now := by
  obtain ⟨before, underway, rfl⟩ := clocked
  exact { underway with }

theorem Clocked.asking (clocked : Clocked state again now) :
    Underway state (again + 1) { now with checkpointWrites := now.checkpointWrites + 1 } := by
  obtain ⟨before, underway, rfl⟩ := clocked
  exact { underway with
    clockReads := congrArg (· + 1) underway.clockReads
    checkpointWrites := congrArg (· + 1) underway.checkpointWrites }

theorem ensures_writeCheckpoint {before final : RunState Cursor -> Prop} {answer : Option Thrown}
    (keeps : ∀ now after, before now -> Kept now after -> final after) :
    Ensures before (writeCheckpoint job answer) (fun _ now => answer = none ∧ final now)
      (fun raised now => answer = some raised ∧ before now) := by
  unfold writeCheckpoint
  split
  case h_1 thrown => exact ensures_throw fun now holds => ⟨rfl, holds⟩
  case h_2 =>
    refine ensures_modify fun now holds => ⟨rfl, keeps now _ holds ⟨?_, rfl, rfl, rfl⟩⟩
    exact Option.map_map _ _ _

theorem ensures_maybeCheckpoint :
    Ensures (Underway state again) (maybeCheckpoint settings around job)
      (fun _ now => checkpointRaises settings around state again = none ∧ Kept state now)
      (fun raised now => checkpointRaises settings around state again = some raised ∧
        Underway state (again + 1) now) := by
  unfold maybeCheckpoint
  split
  case isFalse unwired =>
    exact ensures_pure fun now underway => ⟨by simp [checkpointRaises, unwired], underway.toKept⟩
  case isTrue wired =>
    refine ensures_bind (fun read now => Underway state again now ∧ Underway state again read)
      (fun now underway => ⟨underway, underway⟩) fun read => ensures_of_fact fun same => ?_
    dsimp only
    rw [same.discovered, same.lastCpCount, same.lastCpTime, same.clockReads, same.checkpointWrites]
    refine ensures_bind (fun _ => Clocked state again)
      (ensures_modify fun now underway => ⟨now, underway, rfl⟩) fun _ => ?_
    split
    case isTrue early =>
      have none : checkpointRaises settings around state again = none := by
        simp only [checkpointRaises, wired, early, and_self, if_true]
      exact ensures_pure fun now clocked => ⟨none, clocked.kept⟩
    case isFalse due =>
      have asked : checkpointRaises settings around state again =
          around.checkpoint (state.checkpointWrites + again) := by
        rw [checkpointRaises, if_pos wired, if_neg due]
      rw [asked]
      refine ensures_bind (fun _ => Underway state (again + 1))
        (ensures_modify fun now clocked => clocked.asking) fun _ => ?_
      refine ensures_bind _ (ensures_writeCheckpoint fun now after underway kept =>
        underway.toKept.trans kept) fun _ => ?_
      exact ensures_modify fun now written => ⟨written.1, written.2.status, written.2.budgetHit,
        written.2.aborted, written.2.errorMessage⟩

/-! ## The loop body -/

def Signalled (state : RunState Cursor) (signal : Signal) (now : RunState Cursor) : Prop :=
  match signal with
  | .next => Kept state now
  | .stop =>
    now.row.map JobRow.status = state.row.map JobRow.status ∧
      (now.aborted = true ∨ now.budgetHit = true)

def LetOut (settings : Settings) (around : Surroundings) (job : Job Cursor)
    (state : RunState Cursor) (visit : Visit) (raised : Thrown) (now : RunState Cursor) : Prop :=
  match raised with
  | .skipped _ => ∃ again, Underway state again now ∧
      itemRaises settings around job state visit = checkpointRaises settings around state again
  | other => itemRaises settings around job state visit = some other ∧ Kept state now

theorem ensures_checkpointed (course : course settings job state visit = .goesOn) :
    Ensures (Underway state 0) (do maybeCheckpoint settings around job; pure Signal.next)
      (fun signal now => itemRaises settings around job state visit = none ∧
        Signalled state signal now) (LetOut settings around job state visit) := by
  refine ensures_bind _ (Ensures.raise ensures_maybeCheckpoint ?_) fun _ => ensures_pure ?_
  · intro raised now refused
    cases raised with
    | skipped reason => exact ⟨1, refused.2, by simp [itemRaises, course, refused.1]⟩
    | secretDetected | exception error | cancelled =>
      exact ⟨by simp [itemRaises, course, refused.1], refused.2.toKept⟩
  · intro now passed
    exact ⟨by simp [itemRaises, course, passed.1], passed.2⟩

theorem maybeAbort_eq {other : JobProgress} (discovered : progress.discovered = other.discovered)
    (errors : progress.errors = other.errors) :
    maybeAbort settings progress = maybeAbort settings other := by
  rw [maybeAbort, maybeAbort, discovered, errors]

theorem course_kept (kept : visit.answers.filter = .ok .keep) (wet : job.dryRun = false) :
    course settings job state visit = if overBudget job state visit then .stops else
        match pipelineFailure job state visit with
        | none => .goesOn
        | some thrown => courseOfFailure settings state.progress thrown := by
  simp [course, kept, wet]

theorem ensures_concludeBudgetHalt (kept : visit.answers.filter = .ok .keep)
    (wet : job.dryRun = false) : Ensures (Processed job state visit .budgetHalt)
      (concludeItem settings around job visit.item .budgetHalt)
      (fun signal now => itemRaises settings around job state visit = none ∧
        Signalled state signal now) (LetOut settings around job state visit) := by
  refine ensures_bind (fun _ now => overBudget job state visit ∧
    now.row.map JobRow.status = state.row.map JobRow.status ∧ now.budgetHit = true)
    (ensures_modify ?_) fun _ => ensures_pure ?_
  · rintro now (⟨spent, -, underway⟩ | ⟨-, -, impossible⟩)
    · exact ⟨spent, underway.status, rfl⟩
    · exact impossible.elim
  · rintro now ⟨spent, status, hit⟩
    have courses : course settings job state visit = .stops := by
      rw [course_kept kept wet, if_pos spent]
    exact ⟨by simp [itemRaises, courses], status, .inr hit⟩

theorem Processed.course {outcome : Outcome}
    (processed : Processed job state visit outcome now) (kept : visit.answers.filter = .ok .keep)
    (wet : job.dryRun = false) (finished : outcome = .stored ∨ outcome = .dropped) :
    Underway state 0 now ∧ course settings job state visit = .goesOn := by
  obtain ⟨-, rfl, -⟩ | ⟨under, underway, met⟩ := processed
  · simp at finished
  · have none : pipelineFailure job state visit = none := by
      rcases finished with rfl | rfl <;> exact met
    exact ⟨underway, by rw [course_kept kept wet, if_neg under, none]⟩

theorem course_erred (processed : Processed job state visit .errored now)
    (kept : visit.answers.filter = .ok .keep) (wet : job.dryRun = false) :
    Underway state 0 now ∧ course settings job state visit =
      if maybeAbort settings now.progress then .stops else .goesOn := by
  obtain ⟨-, different, -⟩ | ⟨under, underway, ⟨thrown, met, exception⟩, errors⟩ := processed
  · cases different
  · refine ⟨underway, ?_⟩
    rw [course_kept kept wet, if_neg under, met]
    simp only [courseOfFailure, exception, if_true]
    exact congrArg (fun aborts => if aborts = true then Course.stops else .goesOn)
      (maybeAbort_eq underway.discovered errors).symm

theorem ensures_concludeErrored (kept : visit.answers.filter = .ok .keep)
    (wet : job.dryRun = false) : Ensures (Processed job state visit .errored)
      (concludeItem settings around job visit.item .errored)
      (fun signal now => itemRaises settings around job state visit = none ∧
        Signalled state signal now) (LetOut settings around job state visit) := by
  refine ensures_bind (fun (read : RunState Cursor) now => Underway state 0 now ∧
      course settings job state visit =
        if maybeAbort settings read.progress then .stops else .goesOn)
    (fun now processed => course_erred processed kept wet) fun read => ensures_of_fact fun courses => ?_
  split
  case isTrue aborts =>
    rw [if_pos aborts] at courses
    have none : itemRaises settings around job state visit = none := by
      simp [itemRaises, courses]
    refine ensures_bind (fun _ now => now.row.map JobRow.status = state.row.map JobRow.status ∧
      now.aborted = true) (ensures_modify fun now underway => ⟨underway.status, rfl⟩) fun _ => ?_
    exact ensures_pure fun now stopped => ⟨none, stopped.1, .inl stopped.2⟩
  case isFalse tolerated =>
    rw [if_neg tolerated] at courses
    exact ensures_checkpointed courses

theorem ensures_concludeItem (kept : visit.answers.filter = .ok .keep) (wet : job.dryRun = false)
    (outcome : Outcome) : Ensures (Processed job state visit outcome)
      (concludeItem settings around job visit.item outcome)
      (fun signal now => itemRaises settings around job state visit = none ∧
        Signalled state signal now) (LetOut settings around job state visit) := by
  cases outcome with
  | budgetHalt => exact ensures_concludeBudgetHalt kept wet
  | errored => exact ensures_concludeErrored kept wet
  | stored =>
    have goesOn : ∀ now, Processed job state visit .stored now ->
        Underway state 0 now ∧ course settings job state visit = .goesOn :=
      fun now processed => processed.course kept wet (.inl rfl)
    refine ensures_from goesOn fun courses => ?_
    refine ensures_bind (fun _ => Underway state 0) (ensures_modify fun now underway => ?_) fun _ =>
      ensures_checkpointed courses
    exact underway.passing _
  | dropped =>
    exact ensures_from (fun now processed => processed.course kept wet (.inr rfl))
      ensures_checkpointed

theorem ensures_attemptItem : Ensures (AtGate state) (attemptItem settings around job visit)
      (fun signal now => itemRaises settings around job state visit = none ∧
        Signalled state signal now) (LetOut settings around job state visit) := by
  unfold attemptItem
  refine ensures_bind (fun verdict now => AtGate state now ∧ visit.answers.filter = .ok verdict)
    (ensures_ofExcept (fun verdict answered now gate => ⟨gate, answered⟩) ?_) fun verdict =>
    ensures_of_fact fun answered => ?_
  · intro raised answered now gate
    cases raised with
    | skipped reason => exact ⟨0, gate.toUnderway, by simp [itemRaises, course, answered]⟩
    | secretDetected | exception error | cancelled =>
      exact ⟨by simp [itemRaises, course, answered], gate.toKept⟩
  · cases verdict with
    | drop skipReason =>
      have courses : course settings job state visit = .goesOn := by simp [course, answered]
      refine ensures_bind (fun _ => Underway state 0)
        (ensures_modify fun now gate => gate.toUnderway.skipped _) fun _ => ?_
      exact ensures_bind (fun _ => Underway state 0)
        (ensures_modify fun now underway => underway.counted rfl) fun _ =>
        ensures_checkpointed courses
    | keep =>
      refine ensures_bind (fun _ => AtGate state) (ensures_modify fun now gate => gate.sampled) fun _ => ?_
      split
      case isTrue dry =>
        have courses : course settings job state visit = .goesOn := by simp [course, answered, dry]
        refine ensures_bind (fun _ => Underway state 0)
          (ensures_modify fun now gate => gate.toUnderway.counted rfl) fun _ => ?_
        exact ensures_bind (fun _ => Underway state 0)
          (ensures_modify fun now underway => underway.passing _) fun _ =>
          ensures_checkpointed courses
      case isFalse wet =>
        have wet : job.dryRun = false := by simpa using wet
        refine ensures_bind _ (Ensures.raise ensures_processItem ?_) fun outcome =>
          ensures_concludeItem answered wet outcome
        rintro raised now ⟨under, met, other, kept⟩
        have raises : itemRaises settings around job state visit = some raised := by
          simp [itemRaises, course_kept answered wet, under, met, courseOfFailure, other]
        cases raised with
        | cancelled => exact ⟨raises, kept⟩
        | _ => cases other

theorem ensures_skipItem (raised : Thrown) :
    Ensures (LetOut settings around job state visit raised) (skipItem settings around job raised)
      (fun signal now => itemRaises settings around job state visit = none ∧
        Signalled state signal now)
      (fun thrown now => itemRaises settings around job state visit = some thrown ∧
        Kept state now) := by
  cases raised with
  | secretDetected | exception error | cancelled => exact ensures_throw fun now out => out
  | skipped reason =>
    rintro now ⟨again, underway, decides⟩
    suffices handled : Ensures (Underway state again)
        (skipItem settings around job (.skipped reason)) _ _ from
      handled now underway
    rw [decides]
    refine ensures_bind (fun _ => Underway state again)
      (ensures_modify fun now underway => underway.skipped _) fun _ => ?_
    refine ensures_bind (fun _ => Underway state again)
      (ensures_modify fun now underway => underway.counted rfl) fun _ => ?_
    refine ensures_bind _ (Ensures.raise ensures_maybeCheckpoint fun _ _ refused =>
      ⟨refused.1, refused.2.toKept⟩) fun _ => ?_
    exact ensures_pure fun now passed => passed

theorem ensures_visitItem : Ensures (fun now => now = state) (visitItem settings around job visit)
      (fun signal now => itemRaises settings around job state visit = none ∧
        Signalled state signal now)
      (fun thrown now => itemRaises settings around job state visit = some thrown ∧
        Kept state now) := by
  refine ensures_bind (fun _ => AtGate state) (ensures_modify ?_) fun _ =>
    ensures_tryCatch ensures_attemptItem ensures_skipItem
  rintro now rfl
  exact ⟨⟨⟨⟨⟨rfl, rfl, rfl, rfl⟩, rfl, rfl, rfl, rfl, rfl⟩, rfl⟩, rfl⟩, rfl⟩

theorem Signalled.from {first second third : RunState Cursor} {signal : Signal}
    (earlier : Kept first second) (later : Signalled second signal third) :
    Signalled first signal third := by
  cases signal with
  | next => exact earlier.trans later
  | stop => exact ⟨later.1.trans earlier.status, later.2⟩

def signalOf (exhausted : Bool) : Signal :=
  if exhausted then .next else .stop

/-- Induction on the items still to come: `Escapes` has one constructor for
each way in which something can leave the loop. -/
theorem ensures_loop (settings : Settings) (around : Surroundings) (job : Job Cursor)
    (visits : List Visit) : ∀ state : RunState Cursor,
    Ensures (fun now => now = state) (loop settings around job visits)
      (fun exhausted now => (∀ thrown, Not (Escapes settings around job visits state thrown)) ∧
        Signalled state (signalOf exhausted) now)
      (fun thrown now => Escapes settings around job visits state thrown ∧ Kept state now) := by
  induction visits with
  | nil =>
    intro state
    unfold loop
    split
    case h_1 thrown ends =>
      exact ensures_throw fun now same => ⟨.discover ends, same ▸ Kept.refl now⟩
    case h_2 ends =>
      refine ensures_pure fun now same => ⟨?_, same ▸ Kept.refl now⟩
      intro thrown escapes
      cases escapes with
      | discover raised => simp [ends] at raised
  | cons visit rest rested =>
    intro state
    unfold loop
    refine ensures_bind _ (Ensures.raise (ensures_ran ensures_visitItem) fun _ _ raised =>
      ⟨.body raised.1, raised.2⟩) fun signal => ?_
    cases signal with
    | stop =>
      refine ensures_pure fun now visited => ⟨?_, visited.2.2⟩
      intro thrown escapes
      cases escapes with
      | body raises => simp [visited.2.1] at raises
      | later passes escapes => cases visited.1.symm.trans passes
    | next =>
      rintro after ⟨passed, quiet, kept⟩
      refine Ensures.weaken (rested after) (fun _ same => same) ?_ ?_ after rfl
      · rintro exhausted now ⟨never, signalled⟩
        refine ⟨?_, Signalled.from kept signalled⟩
        intro thrown escapes
        cases escapes with
        | body raises => simp [quiet] at raises
        | later passes escapes =>
          obtain rfl : after = _ := congrArg Prod.snd (passed.symm.trans passes)
          exact never thrown escapes
      · rintro thrown now ⟨escapes, keeps⟩
        exact ⟨.later passed escapes, Kept.trans kept keeps⟩

/-! ## The last block -/

/-- Everything the block needs to get to its end. -/
structure Converging (around : Surroundings) : Prop where
  teardown : ∀ thrown, around.teardown = some thrown -> thrown.isException = true
  finalCheckpoint : around.finalCheckpoint = none
  finish : around.finish = none

structure TornDown (around : Surroundings) (state now : RunState Cursor) : Prop where
  status : now.row.map JobRow.status = state.row.map JobRow.status
  budgetHit : now.budgetHit = state.budgetHit
  aborted : now.aborted = (state.aborted || (around.teardown.isSome && state.errorMessage.isNone))

structure Stamped (around : Surroundings) (state now : RunState Cursor) : Prop where
  status : now.row.map JobRow.status = state.row.map fun _ => (finalStatus now).1
  budgetHit : now.budgetHit = state.budgetHit
  aborted : now.aborted = (state.aborted || (around.teardown.isSome && state.errorMessage.isNone))

theorem ensures_tearDown : Ensures (Kept state) (tearDown around)
      (fun kept now => TornDown around state now ∧ kept = around.teardown ∧
        ∀ thrown, around.teardown = some thrown -> thrown.isException = true)
      (fun _ now => Not (Converging around) ∧
        now.row.map JobRow.status = state.row.map JobRow.status) := by
  unfold tearDown
  split
  case h_1 none =>
    exact ensures_pure fun now kept => ⟨⟨kept.status, kept.budgetHit, by simp [kept.aborted, none]⟩,
      none.symm, by simp [none]⟩
  case h_2 thrown raised =>
    split
    case isTrue exception =>
      refine ensures_bind (fun _ => TornDown around state) (ensures_modify ?_) fun _ => ?_
      · intro now kept
        split
        case isTrue first =>
          exact ⟨kept.status, kept.budgetHit, by simp [raised, ← kept.errorMessage, first]⟩
        case isFalse second =>
          exact ⟨kept.status, kept.budgetHit, by simp [raised, ← kept.errorMessage, second, kept.aborted]⟩
      · refine ensures_pure fun now torn => ⟨torn, raised.symm, ?_⟩
        intro other same
        obtain rfl : thrown = other := Option.some.inj (raised.symm.trans same)
        exact exception
    case isFalse other =>
      refine ensures_throw fun now kept => ⟨fun converging => other ?_, kept.status⟩
      exact converging.teardown thrown raised

theorem TornDown.kept {after : RunState Cursor} (torn : TornDown around state now)
    (kept : Kept now after) : TornDown around state after :=
  ⟨kept.status.trans torn.status, kept.budgetHit.trans torn.budgetHit,
    kept.aborted.trans torn.aborted⟩

theorem ensures_finish : Ensures (TornDown around state) (finish around.finish)
      (fun _ now => Stamped around state now ∧ around.finish = none)
      (fun thrown now => around.finish = some thrown ∧ TornDown around state now) := by
  unfold finish
  split
  case h_1 thrown raised => exact ensures_throw fun now torn => ⟨raised, torn⟩
  case h_2 none =>
    refine ensures_modify fun now torn => ⟨⟨?_, torn.budgetHit, torn.aborted⟩, none⟩
    have rows := congrArg (Option.map fun _ => (finalStatus now).1) torn.status
    rw [Option.map_map, Option.map_map] at rows
    exact (Option.map_map _ _ _).trans rows

theorem ensures_lastBlock (wired : settings.checkpointer = true) :
    Ensures (Kept state) (lastBlock settings around job)
      (fun _ now => Converging around ∧ around.teardown = none ∧ Stamped around state now)
      (fun thrown now =>
        (Converging around ∧ around.teardown = some thrown ∧ Stamped around state now) ∨
        (Not (Converging around) ∧ now.row.map JobRow.status = state.row.map JobRow.status)) := by
  unfold lastBlock
  refine ensures_bind (fun _ => Kept state)
    (ensures_modify fun now kept => ⟨kept.status, kept.budgetHit, kept.aborted, kept.errorMessage⟩)
    fun _ => ?_
  refine ensures_bind _ (Ensures.raise ensures_tearDown fun _ _ => .inr) fun teardownError =>
    ensures_of_fact ?_
  rintro ⟨rfl, exceptions⟩
  rw [if_pos wired]
  refine ensures_bind _ (Ensures.raise (ensures_writeCheckpoint
    fun _ _ (torn : TornDown around state _) kept => torn.kept kept) ?_)
    fun _ => ?_
  · rintro thrown now ⟨refused, torn⟩
    exact .inr ⟨fun converging => by simp [converging.finalCheckpoint] at refused, torn.status⟩
  refine ensures_from (fun now written => ⟨written.2, written.1⟩) fun written => ?_
  refine ensures_bind _ (Ensures.raise ensures_finish ?_) fun _ => ensures_of_fact fun finished => ?_
  · rintro thrown now ⟨refused, torn⟩
    exact .inr ⟨fun converging => by simp [converging.finish] at refused, torn.status⟩
  have converging : Converging around := ⟨exceptions, written, finished⟩
  split
  case h_1 thrown raised =>
    exact ensures_throw fun now stamped => .inl ⟨converging, raised, stamped⟩
  case h_2 none => exact ensures_pure fun now stamped => ⟨converging, none, stamped⟩

def startedRow : JobRow Cursor where
  status := .running
  lastCursor := none
  progress := {}
  skipped := []
  error := none

def fresh (knowledge : List KnowledgeRow) (sources : List SourceRow) : RunState Cursor where
  knowledge := knowledge
  sources := sources

def started (knowledge : List KnowledgeRow) (sources : List SourceRow) : RunState Cursor where
  knowledge := knowledge
  sources := sources
  row := some startedRow

def begun (around : Surroundings) (knowledge : List KnowledgeRow) (sources : List SourceRow) :
    RunState Cursor where
  knowledge := knowledge
  sources := sources
  row := some startedRow
  lastCpTime := around.clock 0
  clockReads := 1

def looped (settings : Settings) (around : Surroundings) (job : Job Cursor)
    (knowledge : List KnowledgeRow) (sources : List SourceRow) : Except Thrown Bool × RunState Cursor :=
  (loop settings around job job.listing.visits).run.run (begun around knowledge sources)

def ran (settings : Settings) (around : Surroundings) (job : Job Cursor)
    (knowledge : List KnowledgeRow) (sources : List SourceRow) :
    Except Thrown (JobReport Cursor) × RunState Cursor :=
  (run settings around job).run.run (fresh knowledge sources)

variable {knowledge : List KnowledgeRow} {sources : List SourceRow}

/-- The listing was used up, neither flag is set, and the caller gets a report. -/
def Completes (settings : Settings) (around : Surroundings) (job : Job Cursor)
    (knowledge : List KnowledgeRow) (sources : List SourceRow) : Prop :=
  (looped settings around job knowledge sources).1 = .ok true ∧
    (ran settings around job knowledge sources).2.aborted = false ∧
    (ran settings around job knowledge sources).2.budgetHit = false ∧
    ∃ report, (ran settings around job knowledge sources).1 = .ok report

/-- The row of a job that was started has a terminal status, and it is
`completed` exactly if the run completes. -/
def Converges (settings : Settings) (around : Surroundings) (job : Job Cursor)
    (knowledge : List KnowledgeRow) (sources : List SourceRow) : Prop :=
  around.prepare = none -> around.start = none ->
    ∃ row,
      (ran settings around job knowledge sources).2.row = some row ∧ row.status ≠ .running ∧
      (row.status = .completed <-> Completes settings around job knowledge sources)

theorem ran_begun (wired : settings.checkpointer = true) (prepared : around.prepare = none)
    (started : around.start = none) : ran settings around job knowledge sources =
      (finallyReport settings around job (looped settings around job knowledge sources).1).run.run
        (looped settings around job knowledge sources).2 := by
  have begins : (startRow settings around).run.run (fresh knowledge sources : RunState Cursor) =
      (.ok ⟨⟩, Backfill.started knowledge sources) := by
    simp only [startRow, wired, started]
    rfl
  unfold ran run
  rw [prepared]
  dsimp only
  rw [run_bind_ok begins, run_bind_ok (run_attempt _ _)]
  rfl

theorem ensures_finallyReport (wired : settings.checkpointer = true) (answer : Except Thrown Bool) :
    Ensures (Kept state) (finallyReport settings around job answer)
      (fun _ now => Converging around ∧ Stamped around state now ∧ around.teardown = none ∧
        ∃ exhausted, answer = .ok exhausted) (fun _ now =>
        (Converging around ∧ Stamped around state now ∧
          (around.teardown = none -> ∃ thrown, answer = .error thrown)) ∨
        (Not (Converging around) ∧ now.row.map JobRow.status = state.row.map JobRow.status)) := by
  unfold finallyReport
  refine ensures_bind _ (Ensures.raise (ensures_lastBlock wired) ?_) fun _ => ?_
  · rintro thrown now (⟨converging, raised, stamped⟩ | stuck)
    · exact .inl ⟨converging, stamped, fun none => by simp [raised] at none⟩
    · exact .inr stuck
  cases answer with
  | error thrown =>
    exact ensures_throw fun now ended => .inl ⟨ended.1, ended.2.2, fun _ => ⟨thrown, rfl⟩⟩
  | ok exhausted =>
    refine ensures_bind (fun _ now => Converging around ∧ around.teardown = none ∧
      Stamped around state now) (fun now ended => ended) fun read => ensures_pure ?_
    exact fun now ended => ⟨ended.1, ended.2.2, ended.2.1, exhausted, rfl⟩

theorem ran_ends (job : Job Cursor) (knowledge : List KnowledgeRow) (sources : List SourceRow)
    (wired : settings.checkpointer = true) (prepared : around.prepare = none)
    (began : around.start = none) : (Converging around ∧
      Stamped around (looped settings around job knowledge sources).2
        (ran settings around job knowledge sources).2 ∧ (around.teardown = none ->
        (∃ exhausted, (looped settings around job knowledge sources).1 = .ok exhausted) ->
        ∃ report, (ran settings around job knowledge sources).1 = .ok report)) ∨
    (Not (Converging around) ∧ (ran settings around job knowledge sources).2.row.map JobRow.status =
        (looped settings around job knowledge sources).2.row.map JobRow.status) := by
  have ends := @ensures_finallyReport _ _ settings around job wired
    (looped settings around job knowledge sources).1 _
    (Kept.refl (looped settings around job knowledge sources).2)
  rw [← ran_begun wired prepared began] at ends
  generalize ran settings around job knowledge sources = outcome at ends ⊢
  rcases outcome with ⟨result, after⟩
  cases result with
  | ok report => exact .inl ⟨ends.1, ends.2.1, fun _ _ => ⟨report, rfl⟩⟩
  | error thrown =>
    obtain ⟨converging, stamped, raised⟩ | stuck := ends
    · refine .inl ⟨converging, stamped, fun none answered => ?_⟩
      obtain ⟨other, failed⟩ := raised none
      obtain ⟨exhausted, answered⟩ := answered
      cases failed.symm.trans answered
    · exact .inr stuck

theorem ran_stamped (job : Job Cursor) (knowledge : List KnowledgeRow) (sources : List SourceRow)
    (wired : settings.checkpointer = true) (prepared : around.prepare = none)
    (began : around.start = none) (converging : Converging around) :
    Stamped around (looped settings around job knowledge sources).2
        (ran settings around job knowledge sources).2 ∧ (around.teardown = none ->
        (∃ exhausted, (looped settings around job knowledge sources).1 = .ok exhausted) ->
        ∃ report, (ran settings around job knowledge sources).1 = .ok report) := by
  obtain ⟨-, ends⟩ | ⟨stuck, -⟩ := ran_ends job knowledge sources wired prepared began
  · exact ends
  · exact absurd converging stuck

theorem looped_ends (settings : Settings) (around : Surroundings) (job : Job Cursor)
    (knowledge : List KnowledgeRow) (sources : List SourceRow) :
    match looped settings around job knowledge sources with
    | (.ok exhausted, now) =>
      (∀ thrown, Not (Escapes settings around job job.listing.visits
        (begun around knowledge sources) thrown)) ∧
        Signalled (begun around knowledge sources) (signalOf exhausted) now
    | (.error thrown, now) =>
      Escapes settings around job job.listing.visits (begun around knowledge sources) thrown ∧
        Kept (begun around knowledge sources) now := by
  have ends := ensures_loop settings around job job.listing.visits (begun around knowledge sources) _ rfl
  unfold looped
  generalize (loop settings around job job.listing.visits).run.run
    (begun around knowledge sources) = outcome at ends ⊢
  rcases outcome with ⟨result, after⟩
  cases result <;> exact ends

theorem looped_running (settings : Settings) (around : Surroundings) (job : Job Cursor)
    (knowledge : List KnowledgeRow) (sources : List SourceRow) :
    (looped settings around job knowledge sources).2.row.map JobRow.status = some .running := by
  have ends := looped_ends settings around job knowledge sources
  generalize looped settings around job knowledge sources = outcome at ends ⊢
  rcases outcome with ⟨result, after⟩
  cases result with
  | error thrown => exact ends.2.status
  | ok exhausted =>
    cases exhausted with
    | true => exact ends.2.status
    | false => exact ends.2.1

inductive LoopEnd (settings : Settings) (around : Surroundings) (job : Job Cursor)
    (knowledge : List KnowledgeRow) (sources : List SourceRow) : Prop where
  | exhausted (answer : (looped settings around job knowledge sources).1 = .ok true)
      (quiet : ∀ thrown, Not (Escapes settings around job job.listing.visits
        (begun around knowledge sources) thrown))
      (kept : Kept (begun around knowledge sources) (looped settings around job knowledge sources).2)
  | brokenOff (flag : (looped settings around job knowledge sources).2.aborted = true ∨
        (looped settings around job knowledge sources).2.budgetHit = true)
      (quiet : ∀ thrown, Not (Escapes settings around job job.listing.visits
        (begun around knowledge sources) thrown))
  | raised (thrown : Thrown) (answer : (looped settings around job knowledge sources).1 = .error thrown)
      (escapes : Escapes settings around job job.listing.visits (begun around knowledge sources) thrown)
      (kept : Kept (begun around knowledge sources) (looped settings around job knowledge sources).2)

theorem loopEnd (settings : Settings) (around : Surroundings) (job : Job Cursor)
    (knowledge : List KnowledgeRow) (sources : List SourceRow) :
    LoopEnd settings around job knowledge sources := by
  have ends := looped_ends settings around job knowledge sources
  rcases answer : looped settings around job knowledge sources with ⟨result, after⟩
  rw [answer] at ends
  have left := congrArg Prod.snd answer
  cases result with
  | error thrown => exact .raised thrown (congrArg Prod.fst answer) ends.1 (left ▸ ends.2)
  | ok exhausted =>
    cases exhausted with
    | true => exact .exhausted (congrArg Prod.fst answer) ends.1 (left ▸ ends.2)
    | false => exact .brokenOff (left ▸ ends.2.2) ends.1

theorem finalStatus_terminal (now : RunState Cursor) : (finalStatus now).1 ≠ .running ∧
      ((finalStatus now).1 = .completed <-> now.aborted = false ∧ now.budgetHit = false) := by
  unfold finalStatus
  split
  case isTrue aborted => simp [aborted]
  case isFalse going =>
    split
    case isTrue hit => simp [hit]
    case isFalse within => simp [going, within]

theorem completes_iff (wired : settings.checkpointer = true) (prepared : around.prepare = none)
    (began : around.start = none) (converging : Converging around)
    (caught : ∀ thrown, Escapes settings around job job.listing.visits
      (begun around knowledge sources) thrown -> around.teardown ≠ none) :
    Completes settings around job knowledge sources <->
      (ran settings around job knowledge sources).2.aborted = false ∧
        (ran settings around job knowledge sources).2.budgetHit = false := by
  obtain ⟨stamped, reports⟩ := ran_stamped job knowledge sources wired prepared began converging
  constructor
  · exact fun completes => ⟨completes.2.1, completes.2.2.1⟩
  · rintro ⟨going, within⟩
    have flags := stamped.aborted
    rw [going] at flags
    cases loopEnd settings around job knowledge sources with
    | exhausted answer quiet kept =>
      have none : around.teardown = none := by
        simpa [kept.aborted, kept.errorMessage, begun] using flags
      exact ⟨answer, going, within, reports none ⟨true, answer⟩⟩
    | brokenOff flag quiet =>
      rcases flag with aborted | hit
      · simp [aborted] at flags
      · rw [stamped.budgetHit, hit] at within
        cases within
    | raised thrown answer escapes kept =>
      have none : around.teardown = none := by
        simpa [kept.aborted, kept.errorMessage, begun] using flags
      exact absurd none (caught thrown escapes)

theorem row_stamped (job : Job Cursor) (knowledge : List KnowledgeRow) (sources : List SourceRow)
    (wired : settings.checkpointer = true) (prepared : around.prepare = none)
    (began : around.start = none) (converging : Converging around) :
    ∃ row, (ran settings around job knowledge sources).2.row = some row ∧
      row.status = (finalStatus (ran settings around job knowledge sources).2).1 := by
  have status := (ran_stamped job knowledge sources wired prepared began converging).1.status
  have running := looped_running settings around job knowledge sources
  cases there : (looped settings around job knowledge sources).2.row with
  | none => simp [there] at running
  | some before =>
    rw [there] at status
    exact Option.map_eq_some_iff.mp status

/-- The row converges exactly if the last block gets to its end and whatever
leaves the item loop is joined by a failure of the teardown. -/
theorem converges_iff (wired : settings.checkpointer = true) :
    Converges settings around job knowledge sources <->
      (around.prepare = none -> around.start = none -> Converging around ∧
        ∀ thrown, Escapes settings around job job.listing.visits
          (begun around knowledge sources) thrown -> around.teardown ≠ none) := by
  constructor
  · intro converges prepared began
    obtain ⟨row, there, terminal, completed⟩ := converges prepared began
    have converging : Converging around := by
      by_contra stuck
      obtain ⟨converging, -⟩ | ⟨-, status⟩ := ran_ends job knowledge sources wired prepared began
      · exact stuck converging
      · rw [looped_running, there] at status
        exact terminal (Option.some.inj status)
    refine ⟨converging, fun thrown escapes none => ?_⟩
    obtain ⟨stamped, -⟩ := ran_stamped job knowledge sources wired prepared began converging
    obtain ⟨same, found, status⟩ := row_stamped job knowledge sources wired prepared began converging
    obtain rfl : row = same := Option.some.inj (there.symm.trans found)
    cases loopEnd settings around job knowledge sources with
    | exhausted answer quiet kept => exact quiet thrown escapes
    | brokenOff flag quiet => exact quiet thrown escapes
    | raised other answer left kept =>
      -- Neither flag is set, so the row reads `completed` although the loop raised.
      have going : (ran settings around job knowledge sources).2.aborted = false := by
        rw [stamped.aborted, kept.aborted, none]
        rfl
      have within : (ran settings around job knowledge sources).2.budgetHit = false :=
        stamped.budgetHit.trans kept.budgetHit
      have reads : row.status = .completed :=
        status.trans ((finalStatus_terminal _).2.mpr ⟨going, within⟩)
      cases answer.symm.trans (completed.mp reads).1
  · intro condition prepared began
    obtain ⟨converging, caught⟩ := condition prepared began
    obtain ⟨row, there, status⟩ := row_stamped job knowledge sources wired prepared began converging
    refine ⟨row, there, status ▸ (finalStatus_terminal _).1, ?_⟩
    rw [status, (finalStatus_terminal _).2, completes_iff wired prepared began converging caught]

def wiredSettings : Settings where
  checkpointer := true
  checkpointEveryN := 50
  checkpointEverySeconds := 30
  errorRatioThreshold := 1 / 10
  errorRatioMinItems := 200

def calm : Surroundings where
  prepare := none
  start := none
  clock _ := 0
  checkpoint _ := none
  teardown := none
  finalCheckpoint := none
  finish := none

def unreachable (ending : Option Thrown) : Job String where
  orgId := 1
  dryRun := false
  tokenBudget := 1000
  listing := { visits := [], ending := ending }
  cursorOf item := item.sourceNativeId
  archivedChannels := 0

def visitTo (sourceNativeId body : String) (embed : Except Thrown (List Rat)) : Visit where
  item :=
    { sourceKind := "slack_msg", sourceNativeId, sourceUri := "slack://" ++ sourceNativeId
      sourceCreatedAt := 0, sourceUpdatedAt := 0, title := "[#general]", body
      author := none, parentRef := none }
  answers :=
    { filter := .ok .keep, redact := .ok body, embed := embed, insert := none, cite := none }

/-- The second item cannot be embedded, the budget does not allow the third one, and the listing
would raise behind it. -/
def thirdOverBudget : Job String where
  orgId := 1
  dryRun := false
  tokenBudget := 6
  listing :=
    { visits :=
        [visitTo "C1:1" "the first" (.ok [1]),
          visitTo "C1:2" "the second" (.error (.exception (.raised "TimeoutError" "embedding"))),
          visitTo "C1:3" "the third" (.ok [1])]
      ending := some (.exception (.raised "HTTPStatusError" "503")) }
  cursorOf item := item.sourceNativeId
  archivedChannels := 0

/-- A checkpoint is written behind every item. -/
def eachItem : Settings :=
  { wiredSettings with checkpointEveryN := 1 }

/-- The job is paused at the third item, with one item stored and one error counted. -/
theorem thirdOverBudget_converges : Converges eachItem calm thirdOverBudget [] [] ∧
    (ran eachItem calm thirdOverBudget [] []).2.row.map
      (fun row => (row.status, row.progress.stored, row.progress.errors)) = some (.paused, 1, 1) := by
  refine ⟨(converges_iff rfl).mpr fun _ _ => ⟨⟨by simp [calm], rfl, rfl⟩, fun _ escapes => ?_⟩, rfl⟩
  cases escapes with
  | body raises => cases raises
  | later passes escapes =>
    cases passes
    cases escapes with
    | body raises => cases raises
    | later passes escapes =>
      cases passes
      cases escapes with
      | body raises => cases raises
      | later passes escapes => cases passes

/-- The listing fails at once, the caller sees the error, and the row reads `completed`. -/
theorem unreachable_diverges : Not (Converges wiredSettings calm
      (unreachable (some (.exception (.raised "HTTPStatusError" "503")))) [] []) := by
  intro converges
  obtain ⟨row, there, -, completed⟩ := converges rfl rfl
  have reads : row.status = .completed := by
    obtain rfl : _ = row := Option.some.inj there
    rfl
  obtain ⟨exhausted, -⟩ := completed.mp reads
  cases exhausted

end Backfill
end BreadMind
