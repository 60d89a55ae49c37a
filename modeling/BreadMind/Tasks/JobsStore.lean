import BreadMind.Base.Values

namespace BreadMind
namespace Tasks

/-!
# The table of background jobs

A job is one row.  Every operation of `BgJobsStore` on it is one statement of
the database, and none of them looks at the status which it replaces.
-/

inductive JobStatus where
  | pending
  | running
  | paused
  | completed
  | failed
  | cancelled
  deriving DecidableEq

/-- The statuses in which `cancel_job` finds nothing to do. -/
def JobStatus.ended : JobStatus -> Bool
  | completed | failed | cancelled => true
  | pending | running | paused => false

/-- An entry of the execution plan, with the keys which are there. -/
structure PlanStep where
  tool : Option String := none
  args : Option Json := none
  description : Option String := none

structure Progress where
  lastCompletedStep : Nat := 0
  totalSteps : Nat
  message : String := ""

structure Entry where
  step : Nat
  description : String
  outcome : Except String String

/-- `result` holds the entries from which the stored text is made. -/
structure JobRow where
  jobType : String
  executionPlan : List PlanStep
  progress : Progress
  status : JobStatus := .pending
  result : Option (List Entry) := none
  error : Option String := none

namespace BgJobsStore

/-- The inserted row; the status is the default of its column. -/
def create (jobType : String) (executionPlan : List PlanStep) : JobRow where
  jobType := jobType
  executionPlan := executionPlan
  progress := { totalSteps := executionPlan.length }

/-- The further columns of the statement are written by `more`. -/
def updateStatus (job : JobRow) (status : JobStatus) (more : JobRow -> JobRow) : JobRow :=
  { more job with status := status }

def updateProgress (job : JobRow) (step : Nat) (message : String) : JobRow :=
  { job with progress := { job.progress with lastCompletedStep := step, message := message } }

end BgJobsStore

end Tasks
end BreadMind
