import BreadMind.Execution.Dict
import BreadMind.Execution.Machine

namespace BreadMind
namespace Coding

open Execution

/-!
# The registry of coding jobs

Each operation of the tracker is one synchronous call, so a run is a sequence of
calls.  The operations look the job up and then assign, whatever its status;
only `cancel_job` has a look at it, and not at every status in which a job is
over.  A run is exact about the terminal statuses, and about the counter of
jobs, as long as no operation comes late.
-/

inductive JobStatus where
  | pending
  | decomposing
  | running
  | completed
  | failed
  | cancelled
  deriving DecidableEq

def JobStatus.terminal : JobStatus -> Bool
  | completed | failed | cancelled => true
  | pending | decomposing | running => false

inductive PhaseStatus where
  | pending
  | running
  | completed
  | failed

structure PhaseInfo where
  step : Nat
  title : String
  status : PhaseStatus := .pending
  output : String := ""
  filesChanged : List String := []

/-- A phase as a plan has it, with the keys which are there. -/
structure PlannedPhase where
  step : Option Nat := none
  title : Option String := none
  prompt : String := ""
  timeout : Nat := 300

/-- `serial` tells the objects apart which were created under one id; it is kept
beside the code. -/
structure JobInfo where
  jobId : String
  project : String
  agent : String
  prompt : String
  user : String := ""
  channel : String := ""
  status : JobStatus := .pending
  phases : List PhaseInfo := []
  currentPhase : Nat := 0
  totalPhases : Nat := 0
  finishedAt : Rat := 0
  sessionId : String := ""
  error : String := ""
  serial : Nat

/-- `counted` lists the increments of `coding_jobs_total`, each with the serial
number of its job and the status it is labelled with.  `created` counts the jobs. -/
structure JobTracker where
  jobs : Dict String JobInfo := []
  counted : List (Nat × JobStatus) := []
  created : Nat := 0

namespace JobTracker

def maxHistory : Nat := 50

def createJob (tracker : JobTracker) (jobId project agent prompt user channel : String) :
    JobTracker :=
  { tracker with
    jobs := Dict.set jobId
      { jobId := jobId, project := project, agent := agent, prompt := prompt, user := user
        channel := channel, serial := tracker.created } tracker.jobs
    created := tracker.created + 1 }

def modify (tracker : JobTracker) (jobId : String) (change : JobInfo -> JobInfo) : JobTracker :=
  match tracker.jobs.lookup jobId with
  | some job => { tracker with jobs := Dict.set jobId (change job) tracker.jobs }
  | none => tracker

def setDecomposing (tracker : JobTracker) (jobId : String) : JobTracker :=
  tracker.modify jobId fun job => { job with status := .decomposing }

def phaseInfo (index : Nat) (phase : PlannedPhase) : PhaseInfo where
  step := phase.step.getD (index + 1)
  title := phase.title.getD ("Phase " ++ toString (index + 1))

def setPhases (tracker : JobTracker) (jobId : String) (phases : List PlannedPhase) : JobTracker :=
  tracker.modify jobId fun job =>
    { job with
      totalPhases := phases.length, phases := phases.mapIdx phaseInfo, status := .running }

def modifyPhase (step : Nat) (change : PhaseInfo -> PhaseInfo) : List PhaseInfo -> List PhaseInfo
  | [] => []
  | phase :: rest =>
    if phase.step = step then change phase :: rest else phase :: modifyPhase step change rest

def startPhase (tracker : JobTracker) (jobId : String) (step : Nat) : JobTracker :=
  tracker.modify jobId fun job =>
    { job with
      currentPhase := step
      phases := modifyPhase step (fun phase => { phase with status := .running }) job.phases }

def completePhase (tracker : JobTracker) (jobId : String) (step : Nat) (success : Bool)
    (output : String) (filesChanged : List String) : JobTracker :=
  tracker.modify jobId fun job =>
    { job with
      phases := modifyPhase step (fun phase =>
        { phase with
          status := if success = true then .completed else .failed
          output := (output.take 500).toString, filesChanged := filesChanged }) job.phases }

/-- The terminal jobs with the earliest ends go, when there are too many. -/
def cleanupHistory (tracker : JobTracker) : JobTracker :=
  let completed := (tracker.jobs.map Prod.snd).filter fun job => job.status.terminal
  let sorted := completed.mergeSort fun first second => decide (first.finishedAt ≤ second.finishedAt)
  { tracker with
    jobs := (sorted.take (completed.length - maxHistory)).foldl
      (fun jobs job => Dict.pop job.jobId jobs) tracker.jobs }

/-- A change of a job which is counted under its new status. -/
def finish (tracker : JobTracker) (jobId : String) (job : JobInfo) : JobTracker :=
  { tracker with
    jobs := Dict.set jobId job tracker.jobs
    counted := tracker.counted ++ [(job.serial, job.status)] }

def completeJob (tracker : JobTracker) (jobId : String) (success : Bool) (sessionId error : String)
    (now : Rat) : JobTracker :=
  match tracker.jobs.lookup jobId with
  | none => tracker
  | some job =>
    (tracker.finish jobId { job with
        status := if success = true then .completed else .failed
        finishedAt := now, sessionId := sessionId, error := error }).cleanupHistory

def cancelJob (tracker : JobTracker) (jobId : String) (now : Rat) : JobTracker :=
  match tracker.jobs.lookup jobId with
  | none => tracker
  | some job =>
    if job.status = .completed ∨ job.status = .failed then tracker
    else tracker.finish jobId { job with status := .cancelled, finishedAt := now }

inductive Operation where
  | createJob (jobId project agent prompt user channel : String)
  | setDecomposing (jobId : String)
  | setPhases (jobId : String) (phases : List PlannedPhase)
  | startPhase (jobId : String) (step : Nat)
  | completePhase (jobId : String) (step : Nat) (success : Bool) (output : String)
      (filesChanged : List String)
  | completeJob (jobId : String) (success : Bool) (sessionId error : String) (now : Rat)
  | cancelJob (jobId : String) (now : Rat)

def step (tracker : JobTracker) : Operation -> JobTracker
  | .createJob jobId project agent prompt user channel =>
    tracker.createJob jobId project agent prompt user channel
  | .setDecomposing jobId => tracker.setDecomposing jobId
  | .setPhases jobId phases => tracker.setPhases jobId phases
  | .startPhase jobId step => tracker.startPhase jobId step
  | .completePhase jobId step success output filesChanged =>
    tracker.completePhase jobId step success output filesChanged
  | .completeJob jobId success sessionId error now =>
    tracker.completeJob jobId success sessionId error now
  | .cancelJob jobId now => tracker.cancelJob jobId now

def machine : Machine JobTracker Operation where
  initial := {}
  step := step

/-! ## What is said of a run -/

/-- A terminal job keeps its status, while it is kept at all. -/
def KeepsStatus (tracker after : JobTracker) : Prop :=
  ∀ jobId job, tracker.jobs.lookup jobId = some job -> job.status.terminal = true ->
    ∀ found, after.jobs.lookup jobId = some found -> found.status = job.status

/-- No job is counted twice, and a terminal one is counted with its status. -/
structure CountedOnce (tracker : JobTracker) : Prop where
  once : (tracker.counted.map Prod.fst).Nodup
  counted : ∀ jobId job, tracker.jobs.lookup jobId = some job ->
    job.status.terminal = true -> (job.serial, job.status) ∈ tracker.counted

def Exact (tracker : JobTracker) (operation : Operation) : Prop :=
  KeepsStatus tracker (tracker.step operation) ∧ CountedOnce (tracker.step operation)

/-- The operations which assign a status come before the job is over; a
`cancel_job` may come after it has completed or failed. -/
def NotLate (tracker : JobTracker) : Operation -> Prop
  | .createJob jobId _ _ _ _ _ | .setDecomposing jobId | .setPhases jobId _
  | .completeJob jobId _ _ _ _ =>
    ∀ job, tracker.jobs.lookup jobId = some job -> job.status.terminal = false
  | .cancelJob jobId _ => ∀ job, tracker.jobs.lookup jobId = some job -> job.status ≠ .cancelled
  | .startPhase _ _ | .completePhase _ _ _ _ _ => True

/-- The serial numbers are below the next one and tell the jobs apart, and a job
is counted exactly when it is over. -/
structure Registered (tracker : JobTracker) : Prop where
  serials : ∀ jobId job, tracker.jobs.lookup jobId = some job -> job.serial < tracker.created
  apart : ∀ first second job other, tracker.jobs.lookup first = some job ->
    tracker.jobs.lookup second = some other -> job.serial = other.serial -> first = second
  fewer : ∀ entry ∈ tracker.counted, entry.1 < tracker.created
  once : CountedOnce tracker
  uncounted : ∀ jobId job, tracker.jobs.lookup jobId = some job ->
    job.status.terminal = false -> job.serial ∉ tracker.counted.map Prod.fst

variable {tracker : JobTracker} {jobId : String} {job : JobInfo}

theorem registered_initial : Registered {} where
  serials _ _ none_ := by cases none_
  apart _ _ _ _ none_ := by cases none_
  fewer _ none_ := by cases none_
  once := ⟨List.nodup_nil, fun _ _ none_ => by cases none_⟩
  uncounted _ _ none_ := by cases none_

/-- A change of one job: what is over stays as it is and is not counted again,
and what is not is counted when it ends. -/
structure Changes (job after : JobInfo) (more : List (Nat × JobStatus)) : Prop where
  serial : after.serial = job.serial
  kept : job.status.terminal = true -> after.status = job.status ∧ more = []
  counts : job.status.terminal = false ->
    more = if after.status.terminal = true then [(job.serial, after.status)] else []

variable {after : JobInfo} {more : List (Nat × JobStatus)}

theorem Changes.more_serial
    (changes : Changes job after more) {entry : Nat × JobStatus} (member : entry ∈ more) :
    entry.1 = job.serial := by
  cases ended : job.status.terminal with
  | true =>
    rw [(changes.kept ended).2] at member
    cases member
  | false =>
    rw [changes.counts ended] at member
    split at member
    · rw [List.mem_singleton.mp member]
    · cases member

def changed (tracker : JobTracker) (jobId : String) (after : JobInfo)
    (more : List (Nat × JobStatus)) : JobTracker :=
  { tracker with
    jobs := Dict.set jobId after tracker.jobs, counted := tracker.counted ++ more }

variable {found : JobInfo} {other : String}

theorem lookup_changed (there : (tracker.changed jobId after more).jobs.lookup other = some found) :
    (other = jobId ∧ found = after) ∨ (other ≠ jobId ∧ tracker.jobs.lookup other = some found) := by
  unfold changed at there
  rw [Dict.lookup_set] at there
  by_cases same : other = jobId
  · rw [if_pos same] at there
    exact .inl ⟨same, (Option.some.inj there).symm⟩
  · rw [if_neg same] at there
    exact .inr ⟨same, there⟩

theorem countedOnce_changed (registered : Registered tracker)
    (here : tracker.jobs.lookup jobId = some job) (changes : Changes job after more) :
    CountedOnce (tracker.changed jobId after more) := by
  constructor
  · change ((tracker.counted ++ more).map Prod.fst).Nodup
    rw [List.map_append]
    cases ended : job.status.terminal with
    | true =>
      rw [(changes.kept ended).2, List.map_nil, List.append_nil]
      exact registered.once.once
    | false =>
      rw [changes.counts ended]
      split
      · refine List.Nodup.append registered.once.once (List.nodup_singleton _) ?_
        exact List.disjoint_singleton.mpr (registered.uncounted jobId job here ended)
      · rw [List.map_nil, List.append_nil]
        exact registered.once.once
  · intro other found there terminal
    refine List.mem_append.mpr ?_
    rcases lookup_changed there with ⟨_, same⟩ | ⟨_, old⟩
    · rw [same] at terminal ⊢
      rw [changes.serial]
      cases ended : job.status.terminal with
      | true =>
        rw [(changes.kept ended).1]
        exact .inl (registered.once.counted jobId job here ended)
      | false =>
        rw [changes.counts ended, if_pos terminal]
        exact .inr List.mem_cons_self
    · exact .inl (registered.once.counted other found old terminal)

theorem registered_changed (registered : Registered tracker)
    (here : tracker.jobs.lookup jobId = some job) (changes : Changes job after more) :
    Registered (tracker.changed jobId after more) := by
  have was : ∀ other found, (tracker.changed jobId after more).jobs.lookup other = some found ->
      ∃ before, tracker.jobs.lookup other = some before ∧ found.serial = before.serial := by
    intro other found there
    rcases lookup_changed there with ⟨same, new⟩ | ⟨_, old⟩
    · exact ⟨job, same ▸ here, new ▸ changes.serial⟩
    · exact ⟨found, old, rfl⟩
  refine ⟨?_, ?_, ?_, countedOnce_changed registered here changes, ?_⟩
  · intro other found there
    rcases was other found there with ⟨before, old, same⟩
    rw [same]
    exact registered.serials other before old
  · intro first second found another there thereToo equal
    rcases was first found there with ⟨before, old, same⟩
    rcases was second another thereToo with ⟨beforeToo, oldToo, sameToo⟩
    rw [same, sameToo] at equal
    exact registered.apart first second before beforeToo old oldToo equal
  · intro entry member
    rcases List.mem_append.mp member with old | new
    · exact registered.fewer entry old
    · rw [changes.more_serial new]
      exact registered.serials jobId job here
  · intro other found there open_ member
    rcases List.mem_map.mp member with ⟨entry, logged, serial⟩
    rcases lookup_changed there with ⟨_, new⟩ | ⟨different, old⟩
    · rw [new] at open_ serial
      have before : job.status.terminal = false := by
        cases ended : job.status.terminal with
        | false => rfl
        | true => rw [(changes.kept ended).1, ended] at open_; cases open_
      have none_ : more = [] := by
        rw [changes.counts before, open_]
        exact if_neg Bool.false_ne_true
      change entry ∈ tracker.counted ++ more at logged
      rw [none_, List.append_nil] at logged
      exact registered.uncounted jobId job here before
        (List.mem_map.mpr ⟨entry, logged, serial.trans changes.serial⟩)
    · rcases List.mem_append.mp logged with before | now
      · exact registered.uncounted other found old open_ (List.mem_map.mpr ⟨entry, before, serial⟩)
      · exact different (registered.apart other jobId found job old here
          (serial.symm.trans (changes.more_serial now)))

theorem lookup_pops {jobs : Dict String JobInfo} {gone : List JobInfo}
    (there : (gone.foldl (fun jobs job => Dict.pop job.jobId jobs) jobs).lookup other = some found) :
    jobs.lookup other = some found := by
  induction gone generalizing jobs with
  | nil => exact there
  | cons job rest ih => exact (Dict.lookup_of_pop (ih there)).2

theorem lookup_cleanupHistory (there : tracker.cleanupHistory.jobs.lookup other = some found) :
    tracker.jobs.lookup other = some found :=
  lookup_pops there

theorem registered_cleanupHistory (registered : Registered tracker) :
    Registered tracker.cleanupHistory where
  serials other found there := registered.serials other found (lookup_cleanupHistory there)
  apart first second job other there thereToo :=
    registered.apart first second job other (lookup_cleanupHistory there)
      (lookup_cleanupHistory thereToo)
  fewer := registered.fewer
  once := ⟨registered.once.once, fun other found there =>
    registered.once.counted other found (lookup_cleanupHistory there)⟩
  uncounted other found there := registered.uncounted other found (lookup_cleanupHistory there)

theorem lookup_createJob {project agent prompt user channel : String}
    (there : (tracker.createJob jobId project agent prompt user channel).jobs.lookup other =
      some found) : (other = jobId ∧ found.status = .pending ∧ found.serial = tracker.created) ∨
      (other ≠ jobId ∧ tracker.jobs.lookup other = some found) := by
  unfold createJob at there
  rw [Dict.lookup_set] at there
  by_cases same : other = jobId
  · rw [if_pos same] at there
    cases there
    exact .inl ⟨same, rfl, rfl⟩
  · rw [if_neg same] at there
    exact .inr ⟨same, there⟩

theorem registered_createJob (registered : Registered tracker)
    (jobId project agent prompt user channel : String) :
    Registered (tracker.createJob jobId project agent prompt user channel) := by
  refine ⟨?_, ?_, ?_, ⟨registered.once.once, ?_⟩, ?_⟩
  · intro other found there
    rcases lookup_createJob there with ⟨_, _, serial⟩ | ⟨_, old⟩
    · exact Nat.lt_succ_of_le (Nat.le_of_eq serial)
    · exact Nat.lt_succ_of_lt (registered.serials other found old)
  · intro first second found another there thereToo equal
    rcases lookup_createJob there with ⟨same, _, serial⟩ | ⟨_, old⟩ <;>
      rcases lookup_createJob thereToo with ⟨sameToo, _, serialToo⟩ | ⟨_, oldToo⟩
    · exact same.trans sameToo.symm
    · have below := registered.serials second another oldToo
      omega
    · have below := registered.serials first found old
      omega
    · exact registered.apart first second found another old oldToo equal
  · intro entry member
    exact Nat.lt_succ_of_lt (registered.fewer entry member)
  · intro other found there terminal
    rcases lookup_createJob there with ⟨_, pending, _⟩ | ⟨_, old⟩
    · rw [pending] at terminal
      cases terminal
    · exact registered.once.counted other found old terminal
  · intro other found there open_ member
    rcases lookup_createJob there with ⟨_, _, serial⟩ | ⟨_, old⟩
    · rcases List.mem_map.mp member with ⟨entry, logged, same⟩
      have below := registered.fewer entry logged
      omega
    · exact registered.uncounted other found old open_ member

/-! ## Operations in time -/

theorem keepsStatus_changed (here : tracker.jobs.lookup jobId = some job)
    (changes : Changes job after more) :
    KeepsStatus tracker (tracker.changed jobId after more) := by
  intro other before there terminal found thereAfter
  rcases lookup_changed thereAfter with ⟨same, new⟩ | ⟨_, old⟩
  · rw [same, here] at there
    cases there
    rw [new]
    exact (changes.kept terminal).1
  · rw [there] at old
    cases old
    rfl

theorem keepsStatus_refl (tracker : JobTracker) : KeepsStatus tracker tracker := by
  intro other before there _ found thereAfter
  rw [there] at thereAfter
  cases thereAfter
  rfl

theorem exact_modify (registered : Registered tracker) (jobId : String)
    (change : JobInfo -> JobInfo)
    (changes : ∀ job, tracker.jobs.lookup jobId = some job -> Changes job (change job) []) :
    Registered (tracker.modify jobId change) ∧
      KeepsStatus tracker (tracker.modify jobId change) := by
  unfold modify
  cases here : tracker.jobs.lookup jobId with
  | none => exact ⟨registered, keepsStatus_refl tracker⟩
  | some job =>
    have after := registered_changed registered here (changes job here)
    have kept := keepsStatus_changed here (changes job here)
    unfold changed at after kept
    rw [List.append_nil] at after kept
    exact ⟨after, kept⟩

theorem changes_open (open_ : job.status.terminal = false)
    (serial : after.serial = job.serial) (stays : after.status.terminal = false) :
    Changes job after [] := by
  refine ⟨serial, fun terminal => ?_, fun _ => ?_⟩
  · rw [open_] at terminal
    cases terminal
  · rw [stays]
    rfl

theorem changes_phases (serial : after.serial = job.serial)
    (same : after.status = job.status) : Changes job after [] := by
  refine ⟨serial, fun _ => ⟨same, rfl⟩, fun open_ => ?_⟩
  rw [same, open_]
  rfl

theorem changes_finish {after : JobInfo} (open_ : job.status.terminal = false)
    (serial : after.serial = job.serial) (ends : after.status.terminal = true) :
    Changes job after [(after.serial, after.status)] := by
  refine ⟨serial, fun terminal => ?_, fun _ => ?_⟩
  · rw [open_] at terminal
    cases terminal
  · rw [ends, serial]
    rfl

theorem not_terminal {status : JobStatus} (ended : Not (status = .completed ∨ status = .failed))
    (cancelled : status ≠ .cancelled) : status.terminal = false := by
  cases status with
  | completed => exact absurd (.inl rfl) ended
  | failed => exact absurd (.inr rfl) ended
  | cancelled => exact absurd rfl cancelled
  | pending | decomposing | running => rfl

theorem exact_of_notLate (registered : Registered tracker) (operation : Operation)
    (inTime : NotLate tracker operation) :
    Registered (tracker.step operation) ∧ KeepsStatus tracker (tracker.step operation) := by
  cases operation with
  | createJob jobId project agent prompt user channel =>
    refine ⟨registered_createJob registered jobId project agent prompt user channel, ?_⟩
    intro other before there terminal found thereAfter
    rcases lookup_createJob thereAfter with ⟨same, _⟩ | ⟨_, old⟩
    · rw [inTime before (same ▸ there)] at terminal
      cases terminal
    · rw [there] at old
      cases old
      rfl
  | setDecomposing jobId | setPhases jobId phases =>
    exact exact_modify registered jobId _ fun job here => changes_open (inTime job here) rfl rfl
  | startPhase jobId step => exact exact_modify registered jobId _ fun _ _ => changes_phases rfl rfl
  | completePhase jobId step success output filesChanged =>
    exact exact_modify registered jobId _ fun _ _ => changes_phases rfl rfl
  | completeJob jobId success sessionId error now =>
    change Registered (tracker.completeJob ..) ∧ KeepsStatus tracker (tracker.completeJob ..)
    unfold completeJob
    cases here : tracker.jobs.lookup jobId with
    | none => exact ⟨registered, keepsStatus_refl tracker⟩
    | some job =>
      have changes := @changes_finish job
        { job with
          status := if success = true then .completed else .failed
          finishedAt := now, sessionId := sessionId, error := error }
        (inTime job here) rfl (by cases success <;> rfl)
      refine ⟨registered_cleanupHistory (registered_changed registered here changes), ?_⟩
      intro other before there terminal found thereAfter
      exact keepsStatus_changed here changes other before there terminal found
        (lookup_cleanupHistory thereAfter)
  | cancelJob jobId now =>
    change Registered (tracker.cancelJob jobId now) ∧ KeepsStatus tracker (tracker.cancelJob jobId now)
    unfold cancelJob
    cases here : tracker.jobs.lookup jobId with
    | none => exact ⟨registered, keepsStatus_refl tracker⟩
    | some job =>
      simp only
      split
      case isTrue _ => exact ⟨registered, keepsStatus_refl tracker⟩
      case isFalse open_ =>
        have changes := @changes_finish job { job with status := .cancelled, finishedAt := now }
          (not_terminal open_ (inTime job here)) rfl rfl
        exact ⟨registered_changed registered here changes, keepsStatus_changed here changes⟩

theorem open_of_keeps {after : JobTracker} (kept : KeepsStatus tracker after)
    (here : tracker.jobs.lookup jobId = some job) (there : after.jobs.lookup jobId = some found)
    (open_ : found.status.terminal = false) : job.status.terminal = false := by
  cases ended : job.status.terminal with
  | false => rfl
  | true =>
    rw [kept jobId job here ended found there, ended] at open_
    cases open_

theorem lookup_modify (here : tracker.jobs.lookup jobId = some job) (change : JobInfo -> JobInfo) :
    (tracker.modify jobId change).jobs.lookup jobId = some (change job) := by
  unfold modify
  rw [here]
  exact Dict.lookup_set_self _ jobId _

theorem open_of_counted (registered : Registered tracker)
    (here : tracker.jobs.lookup jobId = some job) {status : JobStatus}
    (once : ((tracker.counted ++ [(job.serial, status)]).map Prod.fst).Nodup) :
    job.status.terminal = false := by
  cases ended : job.status.terminal with
  | false => rfl
  | true =>
    rw [List.map_append] at once
    have counted := registered.once.counted jobId job here ended
    exact absurd (List.mem_map.mpr ⟨_, counted, rfl⟩)
      (List.disjoint_singleton.mp (List.disjoint_of_nodup_append once))

theorem notLate_of_exact (registered : Registered tracker) (operation : Operation)
    (both : Exact tracker operation) : NotLate tracker operation := by
  rcases both with ⟨kept, once⟩
  cases operation with
  | createJob jobId project agent prompt user channel =>
    intro job here
    exact open_of_keeps kept here (Dict.lookup_set_self _ jobId _) rfl
  | setDecomposing jobId | setPhases jobId phases =>
    intro job here
    exact open_of_keeps kept here (lookup_modify here _) rfl
  | startPhase jobId step => trivial
  | completePhase jobId step success output filesChanged => trivial
  | completeJob jobId success sessionId error now =>
    intro job here
    change CountedOnce (tracker.completeJob ..) at once
    unfold completeJob at once
    rw [here] at once
    exact open_of_counted registered here once.once
  | cancelJob jobId now =>
    intro job here cancelled
    change CountedOnce (tracker.cancelJob jobId now) at once
    unfold cancelJob at once
    simp only [here, cancelled] at once
    have open_ := open_of_counted registered here once.once
    rw [cancelled] at open_
    cases open_

theorem operations_exact (operations : List Operation) :
    machine.EveryStep Exact operations <-> machine.EveryStep NotLate operations := by
  refine machine.everyStep_iff_everyStep Registered registered_initial
    (fun _ operation registered inTime => (exact_of_notLate registered operation inTime).1)
    (fun tracker operation registered => ?_) operations
  constructor
  · exact notLate_of_exact registered operation
  · intro inTime
    rcases exact_of_notLate registered operation inTime with ⟨after, kept⟩
    exact ⟨kept, after.once⟩

end JobTracker

end Coding
end BreadMind
