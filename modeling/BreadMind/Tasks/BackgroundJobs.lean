import BreadMind.Execution.Machine
import BreadMind.Tasks.JobsStore

namespace BreadMind
namespace Tasks

open Execution

/-!
# One background job between the manager and its workers

The calls of the manager and the runs of the workers meet at the row of the job
and at the queue of dispatched tasks.  Each of them stops between any two of its
accesses.  A call of the manager reads the status, may dispatch a task, and
writes a status; a run reads the row when its task is taken, and again before
every step of the plan.

A revoke reaches the workers when it does, if it does: a queued task may be
dropped and a run may be terminated at any moment.  A run may also raise, and
is then marked as failed.
-/

inductive Request where
  | create
  | pause
  | resume
  | cancel
  | recover
  deriving DecidableEq

namespace Request

/-- The status which the call has to find. -/
def allows : Request -> JobStatus -> Bool
  | create, status => status = .pending
  | pause, status => status = .running
  | resume, status => status = .paused
  | cancel, status => !status.ended
  | recover, status => status = .running

def dispatches : Request -> Bool
  | create | resume | recover => true
  | pause | cancel => false

def writes : Request -> JobStatus
  | create => .pending
  | pause => .paused
  | resume | recover => .running
  | cancel => .cancelled

end Request

/-- A call under way.  `seen` counts the status writes made when it read the
row, or when it inserted it; the count is kept beside the code. -/
structure Call where
  request : Request
  seen : Nat
  dispatched : Bool := false

/-- The next access of a run.  For a monitor the index counts its checks. -/
inductive Point where
  | starting
  | checking (index : Nat)
  | noting (index : Nat)
  | executing (index : Nat)
  | recording (index : Nat)
  | completing
  | closing
  | failing (error : String)

structure Run where
  monitor : Bool
  plan : List PlanStep
  start : Nat
  results : List Entry := []
  point : Point := .starting
  seen : Nat

namespace Run

variable (run : Run)

/-- The head of the loop: the next step, or the completion after the last one. -/
def head (index : Nat) : Point :=
  if run.monitor = true ∨ index < run.plan.length then .checking index else .completing

def description (index : Nat) : String :=
  ((run.plan[index]?).bind PlanStep.description).getD ("Step " ++ toString (index + 1))

def tool (index : Nat) : String :=
  ((run.plan[index]?).bind PlanStep.tool).getD ""

def entry (hasTool : String -> Bool) (index : Nat) (outcome : Except String String) : Entry where
  step := index + 1
  description := run.description index
  outcome := if hasTool (run.tool index) = true then outcome
    else .ok ("Tool '" ++ run.tool index ++ "' not found")

end Run

/-- `writes` lists the status writes with the status each of them replaced,
`starts` the steps from which the runs started, `executed` what they noted of the
steps they executed, and `begun` counts the passed checks.  `stopped` holds from
the write of a pause or a cancel until a later resume dispatches.  All five are
kept beside the code. -/
structure Site where
  job : Option JobRow := none
  calls : List Call := []
  queued : Nat := 0
  runs : List Run := []
  writes : List (JobStatus × JobStatus) := []
  starts : List Nat := []
  executed : List Entry := []
  begun : Nat := 0
  stopped : Bool := false

inductive SiteInput where
  | create (jobType : String) (executionPlan : List PlanStep)
  | pause
  | resume
  | cancel
  | recover
  | dispatch (index : Nat)
  | write (index : Nat)
  | start
  | work (index : Nat) (outcome : Except String String)
  | raise (index : Nat) (error : String)
  | kill (index : Nat)
  | drop

namespace Site

variable (site : Site)

def put (status : JobStatus) (more : JobRow -> JobRow) : Site :=
  match site.job with
  | some job =>
    { site with
      job := some (BgJobsStore.updateStatus job status more)
      writes := site.writes ++ [(job.status, status)] }
  | none => site

def note (step : Nat) (message : String) : Site :=
  { site with job := site.job.map fun job => BgJobsStore.updateProgress job step message }

/-- `create_job` inserts the row; the task and the first write are still to come. -/
def create (jobType : String) (executionPlan : List PlanStep) : Site :=
  match site.job with
  | none =>
    { site with
      job := some (BgJobsStore.create jobType executionPlan)
      calls := [{ request := .create, seen := 0 }] }
  | some _ => site

/-- A call reads the row, and goes on when it allows its request. -/
def ask (request : Request) : Site :=
  match site.job with
  | some job =>
    if request.allows job.status = true then
      { site with
        calls := site.calls ++ [{ request := request, seen := site.writes.length }] }
    else site
  | none => site

variable (index : Nat)

def dispatch : Site :=
  match site.calls[index]? with
  | some call =>
    if call.request.dispatches = true ∧ call.dispatched = false then
      { site with
        calls := site.calls.set index { call with dispatched := true }
        queued := site.queued + 1
        stopped := site.stopped &&
          !decide (call.request = .resume ∧ call.seen = site.writes.length) }
    else site
  | none => site

/-- The last access of a call. -/
def finish : Site :=
  match site.calls[index]? with
  | some call =>
    if call.request.dispatches = call.dispatched then
      { site with
        calls := site.calls.eraseIdx index
        stopped := site.stopped || !call.request.dispatches }.put call.request.writes id
    else site
  | none => site

/-! ## The workers -/

def start (site : Site) : Site :=
  match site.job, site.queued with
  | some job, more + 1 =>
    { site with
      queued := more
      starts := site.starts ++ [job.progress.lastCompletedStep]
      runs := site.runs ++
        [{ monitor := job.jobType == "monitor", plan := job.executionPlan,
           start := job.progress.lastCompletedStep, seen := site.writes.length }] }
  | _, _ => site

def goTo (site : Site) (index : Nat) (run : Run) (point : Point) : Site :=
  { site with runs := site.runs.set index { run with point := point } }

def leave : Site :=
  { site with runs := site.runs.eraseIdx index }

def check (run : Run) (step : Nat) : Site :=
  match site.job with
  | some job =>
    if job.status = .cancelled ∨ job.status = .paused then site.leave index
    else
      { site with begun := site.begun + 1 }.goTo index { run with seen := site.writes.length }
        (.noting step)
  | none => site.leave index

def work (hasTool : String -> Bool) (site : Site) (index : Nat)
    (outcome : Except String String) : Site :=
  match site.runs[index]? with
  | none => site
  | some run =>
    match run.point with
    | .starting =>
      (site.goTo index { run with seen := site.writes.length + 1 }
        (run.head (if run.monitor = true then 0 else run.start))).put .running id
    | .checking step => site.check index run step
    | .noting step =>
      if run.monitor = true then
        (site.note (step + 1) ("Check #" ++ toString (step + 1))).goTo index run
          (.executing step)
      else
        (site.note step ("Executing: " ++ run.description step)).goTo index run
          (.executing step)
    | .executing step =>
      if run.monitor = true then site.goTo index run (run.head (step + 1))
      else
        { site with executed := site.executed ++ [run.entry hasTool step outcome] }.goTo index
          { run with results := run.results ++ [run.entry hasTool step outcome] }
          (.recording step)
    | .recording step =>
      (site.note (step + 1) ("Completed: " ++ run.description step)).goTo index run
        (run.head (step + 1))
    | .completing =>
      (site.goTo index run .closing).put .completed fun job =>
        { job with result := some run.results }
    | .closing => (site.note run.plan.length "Completed").leave index
    | .failing error => (site.leave index).put .failed fun job => { job with error := some error }

/-- An access of the run raises; what its tools raise is noted by the run itself.
When already the mark of the failure raises, the run is over. -/
def raise (error : String) : Site :=
  match site.runs[index]? with
  | none => site
  | some run =>
    match run.point with
    | .failing _ => site.leave index
    | .executing _ => site
    | _ => site.goTo index run (.failing error)

def step (hasTool : String -> Bool) (site : Site) : SiteInput -> Site
  | .create jobType executionPlan => site.create jobType executionPlan
  | .pause => site.ask .pause
  | .resume => site.ask .resume
  | .cancel => site.ask .cancel
  | .recover => site.ask .recover
  | .dispatch index => site.dispatch index
  | .write index => site.finish index
  | .start => site.start
  | .work index outcome => site.work hasTool index outcome
  | .raise index error => site.raise index error
  | .kill index => site.leave index
  | .drop => { site with queued := site.queued - 1 }

def machine (hasTool : String -> Bool) : Machine Site SiteInput where
  initial := {}
  step := step hasTool

end Site

end Tasks
end BreadMind
