import BreadMind.Coding.JobTracker

namespace BreadMind
namespace Coding

open Execution

/-!
# Executing a coding plan

`execute_plan` creates its job, works through the phases and completes the job.
Between these it calls code of others: the store, the publisher, the messenger,
the adapter, the supervisor and the process of the phase.  What each of these
calls does is given from outside.  Only what is raised while the phase itself
runs is caught, and a cancellation is not caught even there.

What follows `complete_job` does not touch the tracker and is left out, and so
are the spans.
-/

inductive Answer where
  | returned
  | raised (error : String)
  | cancelled
  deriving DecidableEq

inductive Ran where
  | exited (returncode : Int)
  | raised (error : String)
  | cancelled

structure PhaseAnswers where
  progress : Answer := .returned
  published : Answer := .returned
  notified : Answer := .returned
  command : Answer := .returned
  supervised : Answer := .returned
  ran : Ran := .exited 0
  report : Option String := none
  publishedEnd : Answer := .returned
  notifiedEnd : Answer := .returned

/-- Which optional collaborators there are, and which agents have an adapter;
`available` is how these are listed, which follows the order of a set. -/
structure ExecutorSetup where
  store : Bool := false
  publish : Bool := false
  notify : Bool := false
  adapters : List String
  available : String

structure CodingPlan where
  project : String
  agent : String := "claude"
  originalPrompt : String := ""
  phases : List PlannedPhase

structure PhaseResult where
  step : Nat
  title : String
  success : Bool
  output : String

structure Summary where
  success : Bool
  error : Option String := none
  results : List PhaseResult := []

/-- Where an execution of the phases stands; `escaped` when an exception has left it. -/
structure PlanRun where
  tracker : JobTracker
  results : List PhaseResult := []
  escaped : Bool := false

structure PlanEnd where
  tracker : JobTracker
  summary : Option Summary

namespace CodingJobExecutor

variable (setup : ExecutorSetup) (jobId : String)

def announced (answers : PhaseAnswers) : Bool :=
  (!setup.store || answers.progress = .returned) &&
    (!setup.publish || answers.published = .returned) &&
    (!setup.notify || answers.notified = .returned)

def failPhase (run : PlanRun) (step : Nat) (title error : String) : PlanRun :=
  { run with
    tracker := run.tracker.completePhase jobId step false error []
    results := run.results ++
      [{ step := step, title := title, success := false, output := "Execution error: " ++ error }] }

/-- The answer to a call within the phase, and how the phase goes on after it. -/
def within (run : PlanRun) (step : Nat) (title : String) (there : Bool) (answer : Answer)
    (next : PlanRun) : PlanRun :=
  if there = false then next
  else
    match answer with
    | .returned => next
    | .raised error => failPhase jobId run step title error
    | .cancelled => { run with escaped := true }

def finishPhase (run : PlanRun) (step : Nat) (title : String) (success : Bool) (report : String) :
    PlanRun :=
  { run with
    tracker := run.tracker.completePhase jobId step success report []
    results := run.results ++
      [{ step := step, title := title, success := success, output := report }] }

/-- The phase from the start of its process on. -/
def executePhase (run : PlanRun) (step : Nat) (title : String) (answers : PhaseAnswers) : PlanRun :=
  match answers.ran with
  | .cancelled => { run with escaped := true }
  | .raised error => failPhase jobId run step title error
  | .exited returncode =>
    let success := decide (returncode = 0)
    let report := if answers.supervised = .returned then answers.report.getD "" else ""
    let done := finishPhase jobId run step title success report
    within jobId done step title setup.publish answers.publishedEnd
      (within jobId done step title (!success && setup.notify) answers.notifiedEnd done)

def runPhase (run : PlanRun) (index : Nat) (phase : PlannedPhase) (answers : PhaseAnswers) :
    PlanRun :=
  let step := phase.step.getD (index + 1)
  let title := phase.title.getD ("Phase " ++ toString step)
  if announced setup answers = false then { run with escaped := true }
  else
    let started := { run with tracker := run.tracker.startPhase jobId step }
    if answers.command ≠ .returned ∨ answers.supervised = .cancelled then
      { started with escaped := true }
    else executePhase setup jobId started step title answers

def runPhases (answers : Nat -> PhaseAnswers) : Nat -> List PlannedPhase -> PlanRun -> PlanRun
  | _, [], run => run
  | index, phase :: rest, run =>
    let after := runPhase setup jobId run index phase (answers index)
    if after.escaped = true then after else runPhases answers (index + 1) rest after

def executePlan (tracker : JobTracker) (plan : CodingPlan) (user channel : String)
    (answers : Nat -> PhaseAnswers) (now : Rat) : PlanEnd :=
  let created := tracker.createJob jobId plan.project plan.agent plan.originalPrompt user channel
  if plan.phases = [] then
    { tracker := created.completeJob jobId false "" "No phases in plan" now
      summary := some { success := false, error := some "No phases in plan" } }
  else
    let ready := (created.setDecomposing jobId).setPhases jobId plan.phases
    if plan.agent ∉ setup.adapters then
      { tracker := ready
        summary := some
          { success := false
            error := some ("Unknown coding agent: " ++ plan.agent ++ ". Available: " ++
              setup.available) } }
    else
      let run := runPhases setup jobId answers 0 plan.phases { tracker := ready }
      if run.escaped = true then { tracker := run.tracker, summary := none }
      else
        let success := decide ((run.results.filter PhaseResult.success).length = plan.phases.length)
        { tracker := run.tracker.completeJob jobId success "" "" now
          summary := some { success := success, results := run.results } }

/-- The job with the id is over, if it is still kept. -/
def Ended (tracker : JobTracker) : Prop :=
  ∀ job, tracker.jobs.lookup jobId = some job -> job.status.terminal = true

/-- Nothing is raised by the calls of a phase outside its own `try`, and none of
its calls is cancelled. -/
def Survives (answers : PhaseAnswers) : Prop :=
  announced setup answers = true ∧ answers.command = .returned ∧
    answers.supervised ≠ .cancelled ∧
    match answers.ran with
    | .cancelled => False
    | .raised _ => True
    | .exited returncode =>
      (setup.publish = true -> answers.publishedEnd ≠ .cancelled) ∧
        ((setup.publish = true -> answers.publishedEnd = .returned) -> returncode ≠ 0 ->
          setup.notify = true -> answers.notifiedEnd ≠ .cancelled)

variable {setup jobId} {tracker : JobTracker} {run : PlanRun}

def Running (jobId : String) (tracker : JobTracker) : Prop :=
  ∃ job, tracker.jobs.lookup jobId = some job ∧ job.status = .running

theorem running_modify (running : Running jobId tracker) {change : JobInfo -> JobInfo}
    (same : ∀ job, (change job).status = job.status) :
    Running jobId (tracker.modify jobId change) := by
  rcases running with ⟨job, here, status⟩
  exact ⟨change job, JobTracker.lookup_modify here change, (same job).trans status⟩

/-- What a part of a phase does: the job goes on running, and an exception has
left the part unless the condition holds. -/
structure Leads (jobId : String) (after : PlanRun) (condition : Prop) : Prop where
  running : Running jobId after.tracker
  escaped : after.escaped = false <-> condition

variable {condition : Prop}

theorem Leads.congr {after : PlanRun} {other : Prop} (leads : Leads jobId after condition)
    (same : condition <-> other) : Leads jobId after other :=
  ⟨leads.running, leads.escaped.trans same⟩

theorem leads_escape (running : Running jobId run.tracker)
    (fails : Not condition) : Leads jobId { run with escaped := true } condition :=
  ⟨running, iff_of_false nofun fails⟩

theorem leads_failPhase (running : Running jobId run.tracker) (open_ : run.escaped = false)
    (holds : condition) (step : Nat) (title error : String) :
    Leads jobId (failPhase jobId run step title error) condition :=
  ⟨running_modify running fun _ => rfl, iff_of_true open_ holds⟩

theorem leads_within (running : Running jobId run.tracker) (open_ : run.escaped = false)
    (step : Nat) (title : String) (there : Bool) (answer : Answer) {next : PlanRun}
    (leads : Leads jobId next condition) :
    Leads jobId (within jobId run step title there answer next)
      ((there = true -> answer ≠ .cancelled) ∧ ((there = true -> answer = .returned) -> condition)) := by
  unfold within
  cases there with
  | false =>
    refine ⟨leads.running, leads.escaped.trans ?_⟩
    exact ⟨fun holds => ⟨nofun, fun _ => holds⟩, fun both => both.2 nofun⟩
  | true =>
    rw [if_neg Bool.false_ne_true.symm]
    cases answer with
    | returned =>
      refine ⟨leads.running, leads.escaped.trans ?_⟩
      exact ⟨fun holds => ⟨nofun, fun _ => holds⟩, fun both => both.2 fun _ => rfl⟩
    | raised error =>
      exact leads_failPhase running open_ ⟨nofun, fun returned => nomatch returned rfl⟩ step title
        error
    | cancelled => exact leads_escape running fun both => both.1 rfl rfl

theorem leads_finishPhase (running : Running jobId run.tracker) (open_ : run.escaped = false)
    (step : Nat) (title : String) (success : Bool) (report : String) :
    Leads jobId (finishPhase jobId run step title success report) True :=
  ⟨running_modify running fun _ => rfl, iff_of_true open_ trivial⟩

theorem leads_executePhase (running : Running jobId run.tracker) (open_ : run.escaped = false)
    (step : Nat) (title : String) (answers : PhaseAnswers) :
    Leads jobId (executePhase setup jobId run step title answers) (match answers.ran with
        | .cancelled => False
        | .raised _ => True
        | .exited returncode =>
          (setup.publish = true -> answers.publishedEnd ≠ .cancelled) ∧
            ((setup.publish = true -> answers.publishedEnd = .returned) -> returncode ≠ 0 ->
              setup.notify = true -> answers.notifiedEnd ≠ .cancelled)) := by
  unfold executePhase
  cases answers.ran with
  | cancelled => exact leads_escape running id
  | raised error => exact leads_failPhase running open_ trivial step title error
  | exited returncode =>
    simp only
    have done := leads_finishPhase running open_ step title (decide (returncode = 0))
      (if answers.supervised = .returned then answers.report.getD "" else "")
    refine (leads_within done.running open_ step title setup.publish answers.publishedEnd
      (leads_within done.running open_ step title _ answers.notifiedEnd done)).congr ?_
    refine and_congr_right fun _ => imp_congr_right fun _ => ?_
    rw [Bool.and_eq_true, Bool.not_eq_true', decide_eq_false_iff_not]
    exact ⟨fun both failed notify => both.1 ⟨failed, notify⟩,
      fun each => ⟨fun both => each both.1 both.2, fun _ => trivial⟩⟩

theorem leads_runPhase (running : Running jobId run.tracker) (open_ : run.escaped = false)
    (index : Nat) (phase : PlannedPhase) (answers : PhaseAnswers) :
    Leads jobId (runPhase setup jobId run index phase answers) (Survives setup answers) := by
  unfold runPhase
  simp only
  by_cases announced_ : announced setup answers = false
  · rw [if_pos announced_]
    refine leads_escape running fun survives => ?_
    exact absurd (survives.1.symm.trans announced_) nofun
  · rw [if_neg announced_]
    have started : Running jobId (run.tracker.startPhase jobId (phase.step.getD (index + 1))) :=
      running_modify running fun _ => rfl
    by_cases stops : answers.command ≠ .returned ∨ answers.supervised = .cancelled
    · rw [if_pos stops]
      refine ⟨started, iff_of_false nofun fun survives => ?_⟩
      exact stops.elim (fun command => command survives.2.1) survives.2.2.1
    · rw [if_neg stops]
      rcases not_or.mp stops with ⟨command, supervised⟩
      refine (@leads_executePhase setup jobId { run with tracker := _ } started open_ _ _
        answers).congr ?_
      exact ⟨fun rest => ⟨Bool.not_eq_false _ ▸ announced_, not_not.mp command, supervised, rest⟩,
        fun survives => survives.2.2.2⟩

theorem leads_runPhases (answers : Nat -> PhaseAnswers) (phases : List PlannedPhase)
    (index : Nat) (running : Running jobId run.tracker) (open_ : run.escaped = false) :
    Leads jobId (runPhases setup jobId answers index phases run)
      (∀ later < phases.length, Survives setup (answers (index + later))) := by
  induction phases generalizing index run with
  | nil => exact ⟨running, iff_of_true open_ nofun⟩
  | cons phase rest ih =>
    unfold runPhases
    have first := @leads_runPhase setup jobId run running open_ index phase (answers index)
    simp only
    split
    case isTrue escaped =>
      refine ⟨first.running, iff_of_false (by rw [escaped]; exact nofun) fun each => ?_⟩
      have open_ := first.escaped.mpr (each 0 (Nat.zero_lt_succ _))
      rw [escaped] at open_
      cases open_
    case isFalse going =>
      have open_ := Bool.eq_false_iff.mpr going
      refine (ih (index + 1) first.running open_).congr ?_
      constructor
      · intro each later inside
        cases later with
        | zero => exact first.escaped.mp open_
        | succ more =>
          have survives := each more (Nat.lt_of_succ_lt_succ inside)
          rw [Nat.add_assoc, Nat.add_comm 1] at survives
          exact survives
      · intro each later inside
        have survives := each (later + 1) (Nat.succ_lt_succ inside)
        rw [Nat.add_assoc, Nat.add_comm 1]
        exact survives

theorem ended_completeJob (success : Bool) (sessionId error : String) (now : Rat) :
    Ended jobId (tracker.completeJob jobId success sessionId error now) := by
  intro job there
  unfold JobTracker.completeJob at there
  cases here : tracker.jobs.lookup jobId with
  | none =>
    rw [here] at there
    simp only [here] at there
    cases there
  | some before =>
    rw [here] at there
    have found := JobTracker.lookup_cleanupHistory there
    unfold JobTracker.finish at found
    rw [Dict.lookup_set_self] at found
    cases found
    cases success <;> rfl

theorem not_ended_of_running (running : Running jobId tracker) : Not (Ended jobId tracker) := by
  intro ended
  rcases running with ⟨job, here, status⟩
  have terminal := ended job here
  rw [status] at terminal
  cases terminal

theorem running_ready (jobId : String) (plan : CodingPlan) (user channel : String) :
    Running jobId (((tracker.createJob jobId plan.project plan.agent plan.originalPrompt user
      channel).setDecomposing jobId).setPhases jobId plan.phases) :=
  ⟨_, JobTracker.lookup_modify (JobTracker.lookup_modify (Dict.lookup_set_self _ jobId _) _) _, rfl⟩

theorem ended_executePlan (plan : CodingPlan) (user channel : String)
    (answers : Nat -> PhaseAnswers) (now : Rat) :
    Ended jobId (executePlan setup jobId tracker plan user channel answers now).tracker <->
      plan.phases = [] ∨ (plan.agent ∈ setup.adapters ∧
        ∀ index < plan.phases.length, Survives setup (answers index)) := by
  unfold executePlan
  simp only
  by_cases none_ : plan.phases = []
  · rw [if_pos none_]
    exact iff_of_true (ended_completeJob false "" _ now) (.inl none_)
  · rw [if_neg none_]
    have ready := @running_ready tracker jobId plan user channel
    by_cases unknown : plan.agent ∉ setup.adapters
    · rw [if_pos unknown]
      exact iff_of_false (not_ended_of_running ready) fun either =>
        either.elim none_ fun known => unknown known.1
    · rw [if_neg unknown]
      have leads := @leads_runPhases setup jobId { tracker := _ } answers plan.phases 0 ready rfl
      simp only [Nat.zero_add] at leads
      split
      case isTrue escaped =>
        refine iff_of_false (not_ended_of_running leads.running) fun either =>
          either.elim none_ fun known => ?_
        exact Bool.noConfusion (escaped.symm.trans (leads.escaped.mpr known.2))
      case isFalse open_ =>
        exact iff_of_true (ended_completeJob _ "" "" now)
          (.inr ⟨not_not.mp unknown, leads.escaped.mp (Bool.eq_false_iff.mpr open_)⟩)

/-- Terminal statuses are kept and jobs counted once exactly when no operation comes
late; and a plan ends its job exactly when it gets to one of its calls of
`complete_job`. -/
theorem jobs_ended (operations : List JobTracker.Operation) (setup : ExecutorSetup)
    (jobId : String) (tracker : JobTracker) (plan : CodingPlan) (user channel : String)
    (answers : Nat -> PhaseAnswers) (now : Rat) :
    (JobTracker.machine.EveryStep JobTracker.Exact operations <->
      JobTracker.machine.EveryStep JobTracker.NotLate operations) ∧
    (Ended jobId (executePlan setup jobId tracker plan user channel answers now).tracker <->
      plan.phases = [] ∨ (plan.agent ∈ setup.adapters ∧
        ∀ index < plan.phases.length, Survives setup (answers index))) :=
  ⟨JobTracker.operations_exact operations, ended_executePlan plan user channel answers now⟩

def overtaken : List JobTracker.Operation :=
  [.createJob "j1" "/repo" "claude" "fix the bug" "" "", .setPhases "j1" [{}], .startPhase "j1" 1,
    .cancelJob "j1" 5, .completePhase "j1" 1 true "done" [], .completeJob "j1" true "" "" 7]

theorem job_completed_after_cancel : Not ((∀ operations : List JobTracker.Operation,
        JobTracker.machine.EveryStep JobTracker.Exact operations) ∧
      ∀ (setup : ExecutorSetup) (jobId : String) (tracker : JobTracker) (plan : CodingPlan)
        (user channel : String) (answers : Nat -> PhaseAnswers) (now : Rat),
        Ended jobId (executePlan setup jobId tracker plan user channel answers now).tracker) := by
  intro claim
  have exact_ := claim.1 overtaken
  rw [Machine.everyStep_iff_stepsFrom] at exact_
  have once : ((0, JobStatus.cancelled) :: [(0, JobStatus.completed)]).map Prod.fst |>.Nodup :=
    exact_.2.2.2.2.2.1.2.once
  exact absurd once (by decide)

end CodingJobExecutor

end Coding
end BreadMind
