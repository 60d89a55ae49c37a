import BreadMind.Execution.Bags
import BreadMind.Tasks.BackgroundJobs

namespace BreadMind
namespace Tasks

open Execution

/-!
# Finality of the status of a job

No write of a status looks at the status it replaces, so what an earlier read
allowed may no longer hold at the write.  When every write still finds the row
as its writer last saw it, and a task starts only on a pending or running job
which no other run is at, then an ended job keeps its status and a stopped job
begins no further step.
-/

namespace Site

def KeepsStatus (hasTool : String -> Bool) (site : Site) (input : SiteInput) : Prop :=
  ∀ status, site.job.map JobRow.status = some status -> status.ended = true ->
    (site.step hasTool input).job.map JobRow.status = some status

/-- After a pause or a cancel no step of the plan is begun. -/
def Halts (hasTool : String -> Bool) (site : Site) (input : SiteInput) : Prop :=
  site.stopped = true -> (site.step hasTool input).begun = site.begun

/-- `pending` and `running` were never written over the status of an ended run. -/
def NotReopened (site : Site) : Prop :=
  ∀ entry ∈ site.writes, entry.2 = .pending ∨ entry.2 = .running ->
    entry.1.ended = false

def WritesStatus : Point -> Prop
  | .starting | .completing | .failing _ => True
  | _ => False

/-- Every status is written by someone who has read the row since the last
status write; a task starts only while its job is pending or running and no
other run is at it; and the last note of a completed run does not raise. -/
def Fresh (site : Site) : SiteInput -> Prop
  | .write index => ∀ call, site.calls[index]? = some call -> call.seen = site.writes.length
  | .start => site.runs = [] ∧ ∀ job, site.job = some job ->
      job.status = .pending ∨ job.status = .running
  | .work index _ => ∀ run, site.runs[index]? = some run -> WritesStatus run.point ->
      run.seen = site.writes.length
  | .raise index _ => ∀ run, site.runs[index]? = some run -> run.point ≠ .closing
  | _ => True

structure Steady (written : Nat) (job : JobRow) (run : Run) : Prop where
  seen : run.seen ≤ written
  open_ : run.point = .closing ∨ (job.status ≠ .completed ∧ job.status ≠ .failed)
  current : run.point = .closing ∨
    (run.seen = written -> job.status = .pending ∨ job.status = .running)

/-- A call has seen no more status writes than there are; when it has seen them
all, it is still allowed, and a resume which has dispatched is not stopped again. -/
structure Justified (written : Nat) (job : JobRow) (stopped : Bool) (call : Call) : Prop where
  seen : call.seen ≤ written
  allowed : call.seen = written -> call.request.allows job.status = true
  resumed : call.seen = written -> call.request = .resume -> call.dispatched = true ->
    stopped = false

structure Live (site : Site) (job : JobRow) : Prop where
  there : site.job = some job
  calls : ∀ call ∈ site.calls,
    Justified site.writes.length job site.stopped call
  runs : AtMostOne (Steady site.writes.length job) site.runs
  halted : site.stopped = true -> job.status = .paused ∨ job.status = .cancelled
  writes : ∀ entry ∈ site.writes, entry.1.ended = false

variable {hasTool : String -> Bool} {site : Site} {job : JobRow}

variable {status : JobStatus}

theorem allows_not_ended {request : Request}
    (allowed : request.allows status = true) : status.ended = false := by
  cases request <;> cases status <;> first | rfl | cases allowed

theorem writes_not_over (request : Request) :
    request.writes ≠ .completed ∧ request.writes ≠ .failed := by
  cases request <;> decide

def Keeps (site : Site) (job : JobRow) (after : Site) : Prop :=
  ∃ next, Live after next ∧ (job.status.ended = true -> next.status = job.status) ∧
    (site.stopped = true -> after.begun = site.begun)

theorem Live.keeps {after : Site} {next : JobRow} (live : Live after next)
    (status : next.status = job.status) (begun : after.begun = site.begun) : Keeps site job after :=
  ⟨next, live, fun _ => status, fun _ => begun⟩

theorem keeps_put (live : Live site job) (open_ : job.status.ended = false)
    (status : JobStatus) (more : JobRow -> JobRow) {calls : List Call} {runs : List Run}
    {stopped : Bool} (fewer : ∀ call ∈ calls, call ∈ site.calls)
    (steady : AtMostOne (Steady (site.writes.length + 1)
      (BgJobsStore.updateStatus job status more)) runs)
    (halted : stopped = true -> status = .paused ∨ status = .cancelled) :
    Keeps site job ({ site with calls := calls, runs := runs, stopped := stopped }.put status more) := by
  unfold put
  simp only [live.there]
  refine ⟨_, ⟨rfl, ?_, ?_, halted, ?_⟩, fun ended => ?_, fun _ => rfl⟩
  · intro call member
    have seen := (live.calls call (fewer call member)).seen
    have behind : call.seen ≠ site.writes.length + 1 := by omega
    rw [List.length_append, List.length_singleton]
    exact ⟨Nat.le_succ_of_le seen, fun same => absurd same behind, fun same => absurd same behind⟩
  · rw [List.length_append, List.length_singleton]
    exact steady
  · intro entry member
    rcases List.mem_append.mp member with old | new
    · exact live.writes entry old
    · rw [List.mem_singleton.mp new]
      exact open_
  · rw [open_] at ended
    cases ended

/-! ## The manager -/

theorem keeps_ask (live : Live site job) (request : Request) :
    Keeps site job (site.ask request) := by
  unfold ask
  simp only [live.there]
  split
  case isTrue allowed =>
    refine ⟨job, ⟨rfl, ?_, live.runs, live.halted, live.writes⟩, fun _ => rfl, fun _ => rfl⟩
    intro call member
    rcases List.mem_append.mp member with old | new
    · exact live.calls call old
    · rw [List.mem_singleton.mp new]
      exact ⟨Nat.le_refl _, fun _ => allowed, fun _ _ undone => Bool.noConfusion undone⟩
  case isFalse _ => exact live.keeps rfl rfl

theorem keeps_dispatch (live : Live site job) (index : Nat) :
    Keeps site job (site.dispatch index) := by
  unfold dispatch
  cases here : site.calls[index]? with
  | none => exact live.keeps rfl rfl
  | some call =>
    simp only
    split
    case isFalse => exact live.keeps rfl rfl
    case isTrue _ =>
      refine ⟨job, ⟨live.there, ?_, live.runs, ?_, live.writes⟩, fun _ => rfl, fun _ => rfl⟩
      · intro other member
        rcases List.mem_or_eq_of_mem_set member with old | new
        · have justified := live.calls other old
          refine ⟨justified.seen, justified.allowed, fun same resume done => ?_⟩
          change (site.stopped && _) = false
          rw [justified.resumed same resume done]
          exact Bool.false_and _
        · have justified := live.calls call (List.mem_of_getElem? here)
          rw [new]
          refine ⟨justified.seen, justified.allowed, fun same resume _ => ?_⟩
          change (site.stopped && !decide (call.request = .resume ∧ _)) = false
          rw [decide_eq_true ⟨resume, same⟩]
          exact Bool.and_false _
      · intro stopped
        exact live.halted (Bool.and_eq_true_iff.mp stopped).1

theorem runs_halt (runs : decide (status = .pending) = true ∨ decide (status = .running) = true) :
    Not (status = .paused ∨ status = .cancelled) := by
  cases status with
  | pending | running | completed | failed => decide
  | paused | cancelled => rcases runs with same | same <;> cases same

theorem stops_finish {written : Nat} {stopped : Bool} {call : Call}
    (halted : stopped = true -> job.status = .paused ∨ job.status = .cancelled)
    (current : call.seen = written) (justified : Justified written job stopped call)
    (done : call.request.dispatches = call.dispatched)
    (stops : (stopped || !call.request.dispatches) = true) :
    call.request.writes = .paused ∨ call.request.writes = .cancelled := by
  have allowed := justified.allowed current
  have resumed := justified.resumed current
  rw [← done] at resumed
  cases request : call.request with
  | pause => exact .inl rfl
  | cancel => exact .inr rfl
  | resume =>
    rw [request, resumed request (by rw [request]; rfl)] at stops
    cases stops
  | create =>
    rw [request] at stops allowed
    exact absurd (halted ((Bool.or_false _).symm.trans stops)) (runs_halt (.inl allowed))
  | recover =>
    rw [request] at stops allowed
    exact absurd (halted ((Bool.or_false _).symm.trans stops)) (runs_halt (.inr allowed))

/-- Unless somebody else has written, the call finds what it has read. -/
theorem keeps_finish (live : Live site job) (index : Nat) (fresh : Fresh site (.write index)) :
    Keeps site job (site.finish index) := by
  unfold finish
  cases here : site.calls[index]? with
  | none => exact live.keeps rfl rfl
  | some call =>
    simp only
    split
    case isFalse => exact live.keeps rfl rfl
    case isTrue done =>
      have justified := live.calls call (List.mem_of_getElem? here)
      refine keeps_put live (allows_not_ended (justified.allowed (fresh call here)))
        call.request.writes id (fun _ member => List.mem_of_mem_eraseIdx member) ?_
        (stops_finish live.halted (fresh call here) justified done)
      refine live.runs.mono fun run steady => ⟨Nat.le_succ_of_le steady.seen,
        .inr (writes_not_over call.request), Or.inr ?_⟩
      intro same
      have seen := steady.seen
      omega

/-! ## The workers -/

theorem keeps_start (live : Live site job) (fresh : Fresh site .start) :
    Keeps site job site.start := by
  unfold start
  rw [live.there]
  cases site.queued with
  | zero => exact live.keeps rfl rfl
  | succ more =>
    refine ⟨job, ⟨rfl, live.calls, ?_, live.halted, live.writes⟩, fun _ => rfl, fun _ => rfl⟩
    have steady := fresh.2 job live.there
    simp only [fresh.1, List.nil_append]
    refine atMostOne_one ⟨Nat.le_refl _, Or.inr ?_, .inr fun _ => steady⟩
    rcases steady with same | same <;> rw [same] <;> decide

variable {run : Run}

theorem Steady.move {written : Nat} {next : Run} (steady : Steady written job run)
    (apart : run.point ≠ .closing) (same : next.seen = run.seen) : Steady written job next :=
  ⟨same ▸ steady.seen, .inr (steady.open_.resolve_left apart),
    .inr (same ▸ steady.current.resolve_left apart)⟩

theorem live_goTo (live : Live site job) {index : Nat} {next : Run} {point : Point}
    (here : site.runs[index]? = some run) (apart : run.point ≠ .closing)
    (same : next.seen = run.seen) : Live (site.goTo index next point) job :=
  ⟨live.there, live.calls, live.runs.set here ((live.runs.get here).move apart same),
    live.halted, live.writes⟩

theorem live_leave (live : Live site job) (index : Nat) : Live (site.leave index) job :=
  ⟨live.there, live.calls, live.runs.eraseIdx index, live.halted, live.writes⟩

theorem live_note (live : Live site job) (step : Nat) (message : String) :
    Live (site.note step message) (BgJobsStore.updateProgress job step message) := by
  refine ⟨?_, fun call member => ?_, live.runs.mono fun run steady => ?_, live.halted, live.writes⟩
  · unfold note
    rw [live.there]
    rfl
  · have justified := live.calls call member
    exact ⟨justified.seen, justified.allowed, justified.resumed⟩
  · exact ⟨steady.seen, steady.open_, steady.current⟩

theorem pending_or_running (open_ : status ≠ .completed ∧ status ≠ .failed)
    (going : Not (status = .cancelled ∨ status = .paused)) :
    status = .pending ∨ status = .running := by
  cases status with
  | pending => exact .inl rfl
  | running => exact .inr rfl
  | paused => exact absurd (.inr rfl) going
  | cancelled => exact absurd (.inl rfl) going
  | completed => exact absurd rfl open_.1
  | failed => exact absurd rfl open_.2

theorem keeps_check (live : Live site job) {index : Nat}
    (here : site.runs[index]? = some run) (apart : run.point ≠ .closing) (step : Nat) :
    Keeps site job (site.check index run step) := by
  unfold check
  simp only [live.there]
  split
  case isTrue _ => exact (live_leave live index).keeps rfl rfl
  case isFalse going =>
    have open_ := (live.runs.get here).open_.resolve_left apart
    refine ⟨job, ?_, fun _ => rfl, ?_⟩
    · exact ⟨rfl, live.calls, live.runs.set here ⟨Nat.le_refl _, .inr open_,
        .inr fun _ => pending_or_running open_ going⟩, live.halted, live.writes⟩
    · intro stopped
      exact absurd (live.halted stopped) fun halted => going halted.symm

theorem not_ended_of_running
    (runs : status = .pending ∨ status = .running) : status.ended = false := by
  rcases runs with same | same <;> rw [same] <;> rfl

theorem not_stopped (live : Live site job) (runs : job.status = .pending ∨ job.status = .running) :
    site.stopped = true -> False := by
  intro stopped
  rcases live.halted stopped with same | same <;> rw [same] at runs <;> exact absurd runs (by decide)

theorem keeps_work (live : Live site job) (index : Nat) (outcome : Except String String)
    (fresh : Fresh site (.work index outcome)) :
    Keeps site job (site.work hasTool index outcome) := by
  unfold work
  cases here : site.runs[index]? with
  | none => exact live.keeps rfl rfl
  | some run =>
    simp only
    have steady := live.runs.get here
    have current := fresh run here
    have allowed := steady.current.resolve_left
    have going : run.point ≠ .closing -> ∀ next point, next.seen = run.seen ->
        ∀ step message, Live ((site.note step message).goTo index next point)
          (BgJobsStore.updateProgress job step message) :=
      fun apart next point same step message =>
        live_goTo (live_note live step message) here apart same
    cases point : run.point with
    | starting =>
      rw [point] at current allowed
      have runs := allowed Point.noConfusion (current trivial)
      exact keeps_put live (not_ended_of_running runs) .running id (fun _ member => member)
        (live.runs.set here ⟨Nat.le_refl _, .inr ⟨nofun, nofun⟩, .inr fun _ => .inr rfl⟩)
        fun stopped => (not_stopped live runs stopped).elim
    | checking step => exact keeps_check live here (by rw [point]; exact Point.noConfusion) step
    | noting step =>
      rw [point] at going
      simp only
      split
      · exact (going nofun run _ rfl _ _).keeps rfl rfl
      · exact (going nofun run _ rfl _ _).keeps rfl rfl
    | executing step =>
      have apart : run.point ≠ .closing := by
        rw [point]
        exact nofun
      simp only
      split
      · exact (live_goTo live here apart rfl).keeps rfl rfl
      · refine ⟨job, ?_, fun _ => rfl, fun _ => rfl⟩
        exact ⟨live.there, live.calls, live.runs.set here (steady.move apart rfl),
          live.halted, live.writes⟩
    | recording step =>
      rw [point] at going
      exact (going nofun run _ rfl _ _).keeps rfl rfl
    | completing =>
      rw [point] at current allowed
      have runs := allowed Point.noConfusion (current trivial)
      exact keeps_put live (not_ended_of_running runs) .completed _ (fun _ member => member)
        (live.runs.set here ⟨Nat.le_succ_of_le steady.seen, .inl rfl, .inl rfl⟩)
        fun stopped => (not_stopped live runs stopped).elim
    | closing => exact (live_leave (live_note live _ _) index).keeps rfl rfl
    | failing error =>
      rw [point] at current allowed
      have runs := allowed Point.noConfusion (current trivial)
      exact keeps_put live (not_ended_of_running runs) .failed _ (fun _ member => member)
        (.inl (live.runs.eraseIdx_eq_nil here))
        fun stopped => (not_stopped live runs stopped).elim

theorem keeps_raise (live : Live site job) (index : Nat) (error : String)
    (fresh : Fresh site (.raise index error)) : Keeps site job (site.raise index error) := by
  unfold raise
  cases here : site.runs[index]? with
  | none => exact live.keeps rfl rfl
  | some run =>
    simp only
    split
    · exact (live_leave live index).keeps rfl rfl
    · exact live.keeps rfl rfl
    · exact (live_goTo live here (fresh run here) rfl).keeps rfl rfl

theorem keeps_step (live : Live site job) (input : SiteInput) (fresh : Fresh site input) :
    Keeps site job (site.step hasTool input) := by
  cases input with
  | create jobType executionPlan =>
    change Keeps site job (site.create jobType executionPlan)
    unfold create
    simp only [live.there]
    exact live.keeps rfl rfl
  | pause => exact keeps_ask live .pause
  | resume => exact keeps_ask live .resume
  | cancel => exact keeps_ask live .cancel
  | recover => exact keeps_ask live .recover
  | dispatch index => exact keeps_dispatch live index
  | write index => exact keeps_finish live index fresh
  | start => exact keeps_start live fresh
  | work index outcome => exact keeps_work live index outcome fresh
  | raise index error => exact keeps_raise live index error fresh
  | kill index => exact (live_leave live index).keeps rfl rfl
  | drop =>
    refine ⟨job, ?_, fun _ => rfl, fun _ => rfl⟩
    exact ⟨live.there, live.calls, live.runs, live.halted, live.writes⟩

/-- Before the job is there nothing is; from then on it is alive. -/
def Sound (site : Site) : Prop :=
  site = {} ∨ ∃ job, Live site job

theorem sound_first (input : SiteInput) : Sound (step hasTool {} input) := by
  cases input with
  | create jobType executionPlan =>
    refine .inr ⟨BgJobsStore.create jobType executionPlan, rfl, ?_, atMostOne_nil, nofun, nofun⟩
    intro call member
    rw [List.mem_singleton.mp member]
    exact ⟨Nat.le_refl 0, fun _ => rfl, nofun⟩
  | _ => exact .inl rfl

theorem sound_step (sound : Sound site) (input : SiteInput) (fresh : Fresh site input) :
    Sound (site.step hasTool input) := by
  rcases sound with same | ⟨job, live⟩
  · rw [same]
    exact sound_first input
  · rcases keeps_step live input fresh with ⟨next, after, _⟩
    exact .inr ⟨next, after⟩

/-- In every run whose writes are fresh an ended job keeps its status, a stopped
job begins no step, and an ended status is never replaced by `pending` or `running`. -/
theorem status_final (hasTool : String -> Bool) (inputs : List SiteInput)
    (fresh : (machine hasTool).EveryStep Fresh inputs) :
    (machine hasTool).EveryStep (KeepsStatus hasTool) inputs ∧
      (machine hasTool).EveryStep (Halts hasTool) inputs ∧
      (machine hasTool).EveryState NotReopened inputs := by
  have sound := (machine hasTool).guarded_everyState Sound Fresh (.inl rfl)
    (fun _ input sound fresh => sound_step sound input fresh) inputs fresh
  refine ⟨?_, ?_, ?_⟩
  · intro before input rest split status there ended
    rcases sound before (input :: rest) split with none_ | ⟨job, live⟩
    · rw [none_] at there
      cases there
    · rw [live.there] at there
      cases there
      rcases keeps_step live input (fresh before input rest split) with ⟨next, after, kept, _⟩
      rw [after.there]
      exact congrArg some (kept ended)
  · intro before input rest split stopped
    rcases sound before (input :: rest) split with none_ | ⟨job, live⟩
    · rw [none_] at stopped
      cases stopped
    · rcases keeps_step live input (fresh before input rest split) with ⟨_, _, _, begun⟩
      exact begun stopped
  · intro before rest split entry member _
    rcases sound before rest split with none_ | ⟨job, live⟩
    · rw [none_] at member
      cases member
    · exact live.writes entry member

def pausedOnce : List SiteInput :=
  [.create "single" [{ tool := some "shell_exec" }, { tool := some "file_read" }],
    .dispatch 0, .write 0, .start, .work 0 (.ok ""), .work 0 (.ok ""), .pause, .write 0,
    .work 0 (.ok ""), .work 0 (.ok "done"), .work 0 (.ok ""), .work 0 (.ok ""),
    .resume, .dispatch 0, .write 0, .start, .work 0 (.ok ""), .work 0 (.ok ""), .work 0 (.ok ""),
    .work 0 (.error "gone"), .work 0 (.ok ""), .work 0 (.ok ""), .work 0 (.ok ""), .cancel]

theorem forall_here {Item : Type} {item : Item} {property : Item -> Prop} (holds : property item) :
    ∀ other, some item = some other -> property other := by
  intro other same
  cases same
  exact holds

theorem status_pausedOnce :
    (machine fun _ => true).EveryStep (KeepsStatus fun _ => true) pausedOnce ∧
      (machine fun _ => true).EveryStep (Halts fun _ => true) pausedOnce ∧
      (machine fun _ => true).EveryState NotReopened pausedOnce := by
  refine status_final (fun _ => true) pausedOnce ?_
  rw [Machine.everyStep_iff_stepsFrom]
  refine ⟨trivial, trivial, forall_here rfl, ⟨rfl, forall_here (.inl rfl)⟩,
    forall_here fun _ => rfl, forall_here nofun, trivial, forall_here rfl,
    forall_here nofun, forall_here nofun, forall_here nofun, forall_here nofun,
    trivial, trivial, forall_here rfl, ⟨rfl, forall_here (.inr rfl)⟩,
    forall_here fun _ => rfl, forall_here nofun, forall_here nofun,
    forall_here nofun, forall_here nofun, forall_here fun _ => rfl, forall_here nofun, trivial,
    trivial⟩

def endedAtOnce : List SiteInput :=
  [.create "single" [{ tool := some "shell_exec" }], .dispatch 0, .start, .work 0 (.ok ""),
    .work 0 (.ok ""), .work 0 (.ok ""), .work 0 (.ok "done"), .work 0 (.ok ""), .work 0 (.ok ""),
    .work 0 (.ok ""), .write 0]

theorem status_reopened : Not (∀ (hasTool : String -> Bool) (inputs : List SiteInput),
      (machine hasTool).EveryStep (KeepsStatus hasTool) inputs ∧
        (machine hasTool).EveryStep (Halts hasTool) inputs ∧
        (machine hasTool).EveryState NotReopened inputs) := by
  intro claim
  have kept := (claim (fun _ => true) endedAtOnce).1
  rw [Machine.everyStep_iff_stepsFrom] at kept
  have last : some JobStatus.pending = some .completed :=
    kept.2.2.2.2.2.2.2.2.2.2.1 .completed rfl rfl
  cases last

end Site

end Tasks
end BreadMind
