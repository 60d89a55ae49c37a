import Mathlib.Data.List.Basic
import BreadMind.Tasks.Finality

namespace BreadMind
namespace Tasks

open Execution

/-!
# Pausing and resuming a job

A paused run ends at its next check, and a resumed job starts again at the step
which was noted last.  So every step of the plan is executed once and in order,
whatever the pauses.  The results of a run are kept in the run itself: the
stored result begins with the step at which the last run started.
-/

/-- The parts of an entry which the plan determines. -/
def Entry.head (entry : Entry) : Nat × String := (entry.step, entry.description)

def heads (plan : List PlanStep) : List (Nat × String) :=
  plan.mapIdx fun index step =>
    (index + 1, step.description.getD ("Step " ++ toString (index + 1)))

theorem heads_length (plan : List PlanStep) : (heads plan).length = plan.length :=
  List.length_mapIdx

theorem heads_getElem {run : Run} {index : Nat} (inside : index < run.plan.length) :
    (heads run.plan)[index]? = some (index + 1, run.description index) := by
  unfold heads Run.description
  rw [List.getElem?_mapIdx, List.getElem?_eq_getElem inside]
  rfl

namespace Site

/-- The executed steps are the first ones of the plan, once each and in order;
of a completed job they are all. -/
def OnceInOrder (site : Site) : Prop :=
  ∀ job, site.job = some job ->
    site.executed.map Entry.head <+: heads job.executionPlan ∧
      (job.status = .completed -> site.executed.map Entry.head = heads job.executionPlan)

/-- The stored result has what was noted of every step. -/
def WholeResult (site : Site) : Prop :=
  ∀ job, site.job = some job -> job.status = .completed -> job.result = some site.executed

/-- No run found a step done before its start. -/
def StartedAtFirst (site : Site) : Prop :=
  ∀ start ∈ site.starts, start = 0

/-- A job of single type, which is paused and resumed between its steps. -/
def BetweenSteps (site : Site) : SiteInput -> Prop
  | .create jobType _ => jobType ≠ "monitor"
  | .raise _ _ => False
  | .kill index => ∀ run, site.runs[index]? = some run ->
      run.point = .starting ∨ ∃ step, run.point = .checking step
  | input => Fresh site input

def At (plan : List PlanStep) (executed noted start : Nat) : Point -> Prop
  | .starting => noted = executed ∧ start = executed
  | .checking step | .noting step | .executing step =>
    noted = executed ∧ executed = step ∧ step < plan.length
  | .recording step => executed = step + 1
  | .completing => noted = executed ∧ executed = plan.length
  | .closing => executed = plan.length
  | .failing _ => False

structure Paced (executed : List Entry) (starts : List Nat) (plan : List PlanStep) (noted : Nat)
    (run : Run) : Prop where
  single : run.monitor = false
  same : run.plan = plan
  results : run.results = executed.drop run.start
  started : run.start ∈ starts
  latest : ∀ start ∈ starts, start ≤ run.start
  stands : At plan executed.length noted run.start run.point

def Stored (site : Site) (job : JobRow) : Prop :=
  site.executed.length = job.executionPlan.length ∧
    ∃ start ∈ site.starts, (∀ other ∈ site.starts, other ≤ start) ∧
      job.result = some (site.executed.drop start)

structure InStep (site : Site) (job : JobRow) : Prop where
  there : site.job = some job
  single : (job.jobType == "monitor") = false
  inOrder : site.executed.map Entry.head <+: heads job.executionPlan
  paced : AtMostOne (Paced site.executed site.starts job.executionPlan
    job.progress.lastCompletedStep) site.runs
  idle : site.runs = [] -> job.progress.lastCompletedStep = site.executed.length
  starts : ∀ start ∈ site.starts, start ≤ site.executed.length
  stored : job.status = .completed -> Stored site job

variable {hasTool : String -> Bool} {site : Site} {job : JobRow}

theorem InStep.length_le (inStep : InStep site job) :
    site.executed.length ≤ job.executionPlan.length := by
  have short := inStep.inOrder.length_le
  rw [List.length_map, heads_length] at short
  exact short

theorem inStep_ask (inStep : InStep site job) (request : Request) :
    InStep (site.ask request) job := by
  unfold ask
  simp only [inStep.there]
  split
  · exact ⟨rfl, inStep.single, inStep.inOrder, inStep.paced, inStep.idle, inStep.starts,
      inStep.stored⟩
  · exact inStep

theorem inStep_dispatch (inStep : InStep site job) (index : Nat) :
    InStep (site.dispatch index) job := by
  unfold dispatch
  split
  · split
    · exact ⟨inStep.there, inStep.single, inStep.inOrder, inStep.paced, inStep.idle, inStep.starts,
        inStep.stored⟩
    · exact inStep
  · exact inStep

theorem inStep_finish (inStep : InStep site job) (index : Nat) :
    ∃ next, InStep (site.finish index) next := by
  unfold finish
  split
  · split
    · unfold put
      simp only [inStep.there]
      refine ⟨_, rfl, inStep.single, inStep.inOrder, inStep.paced, inStep.idle, inStep.starts, ?_⟩
      intro completed
      exact absurd completed (writes_not_over _).1
    · exact ⟨job, inStep⟩
  · exact ⟨job, inStep⟩

/-! ## The workers -/

theorem inStep_start (inStep : InStep site job) (fresh : Fresh site .start) :
    InStep site.start job := by
  unfold start
  rw [inStep.there]
  cases site.queued with
  | zero => exact inStep
  | succ more =>
    have noted := inStep.idle fresh.1
    have earlier : ∀ start,
        start ∈ site.starts ++ [job.progress.lastCompletedStep] ->
          start ≤ job.progress.lastCompletedStep := by
      intro start member
      rcases List.mem_append.mp member with old | new
      · rw [noted]
        exact inStep.starts start old
      · exact Nat.le_of_eq (List.mem_singleton.mp new)
    refine ⟨rfl, inStep.single, inStep.inOrder, ?_, ?_, ?_, ?_⟩
    · simp only [fresh.1, List.nil_append]
      refine atMostOne_one ⟨inStep.single, rfl, ?_, List.mem_append_right _ List.mem_cons_self,
        earlier, noted, noted⟩
      change [] = site.executed.drop job.progress.lastCompletedStep
      rw [noted, List.drop_length]
    · intro none_
      exact absurd none_ (List.append_ne_nil_of_right_ne_nil _ (List.cons_ne_nil _ _))
    · intro start member
      exact noted ▸ earlier start member
    · intro completed
      rcases fresh.2 job inStep.there with same | same <;> rw [same] at completed <;> cases completed

variable {index : Nat} {run : Run}

theorem inStep_set (inStep : InStep site job) {moved : Run}
    (here : site.runs[index]? = some run) {after : Site} {next : JobRow}
    (there : after.job = some next) (jobType : next.jobType = job.jobType)
    (plan : next.executionPlan = job.executionPlan)
    (runs : after.runs = site.runs.set index moved) (starts : after.starts = site.starts)
    (inOrder : after.executed.map Entry.head <+: heads job.executionPlan)
    (grown : site.executed.length ≤ after.executed.length)
    (paced : Paced after.executed site.starts job.executionPlan next.progress.lastCompletedStep moved)
    (stored : next.status = .completed -> Stored after next) : InStep after next := by
  rw [inStep.paced.set_eq here] at runs
  refine ⟨there, jobType ▸ inStep.single, plan ▸ inOrder, ?_, ?_, ?_, stored⟩
  · rw [runs, starts, plan]
    exact atMostOne_one paced
  · intro none_
    rw [runs] at none_
    cases none_
  · intro start member
    rw [starts] at member
    exact Nat.le_trans (inStep.starts start member) grown

theorem at_head {plan : List PlanStep} {executed start : Nat}
    (single : run.monitor = false) (same : run.plan = plan) (within : executed ≤ plan.length) :
    At plan executed executed start (run.head executed) := by
  unfold Run.head
  rw [same, single]
  by_cases inside : executed < plan.length
  · rw [if_pos (.inr inside)]
    exact ⟨rfl, rfl, inside⟩
  · rw [if_neg fun either => either.elim nofun inside]
    exact ⟨rfl, by omega⟩

theorem inStep_access (inStep : InStep site job)
    (here : site.runs[index]? = some run) {seen begun : Nat} {next : JobRow} {point : Point}
    (jobType : next.jobType = job.jobType) (plan : next.executionPlan = job.executionPlan)
    (open_ : next.status ≠ .completed)
    (stands : At job.executionPlan site.executed.length next.progress.lastCompletedStep run.start
      point) : InStep { site with
      job := some next, begun := begun
      runs := site.runs.set index { run with point := point, seen := seen } } next := by
  have paced := inStep.paced.get here
  refine inStep_set inStep here rfl jobType plan rfl rfl inStep.inOrder (Nat.le_refl _) ?_
    fun completed => absurd completed open_
  exact ⟨paced.single, paced.same, paced.results, paced.started, paced.latest, stands⟩

theorem inStep_leave (inStep : InStep site job) (index : Nat)
    (noted : job.progress.lastCompletedStep = site.executed.length) :
    InStep (site.leave index) job :=
  ⟨inStep.there, inStep.single, inStep.inOrder, inStep.paced.eraseIdx index, fun _ => noted,
    inStep.starts, inStep.stored⟩

theorem inStep_execute (inStep : InStep site job) {step : Nat}
    (here : site.runs[index]? = some run) (point : run.point = .executing step)
    (outcome : Except String String) (open_ : job.status ≠ .completed) :
    InStep ({ site with executed := site.executed ++ [run.entry hasTool step outcome] }.goTo index
      { run with results := run.results ++ [run.entry hasTool step outcome] } (.recording step))
      job := by
  have paced := inStep.paced.get here
  have stands := paced.stands
  rw [point] at stands
  rcases stands with ⟨noted, executed, inside⟩
  have longer : (site.executed ++ [run.entry hasTool step outcome]).length = step + 1 := by
    rw [List.length_append, List.length_singleton, executed]
  have next : (heads job.executionPlan)[site.executed.length]? =
      some (run.entry hasTool step outcome).head := by
    rw [executed, ← paced.same]
    exact heads_getElem (paced.same ▸ inside)
  have inOrder : (site.executed ++ [run.entry hasTool step outcome]).map Entry.head <+:
      heads job.executionPlan := by
    rw [List.map_append, List.map_singleton]
    rcases inStep.inOrder with ⟨later, whole⟩
    rw [← whole, List.getElem?_append_right (Nat.le_of_eq (List.length_map Entry.head)),
      List.length_map, Nat.sub_self] at next
    cases later with
    | nil => cases next
    | cons first rest =>
      rw [← Option.some.inj next]
      exact ⟨rest, (List.append_assoc _ _ _).trans whole⟩
  have results : run.results ++ [run.entry hasTool step outcome] =
      (site.executed ++ [run.entry hasTool step outcome]).drop run.start := by
    rw [paced.results, List.drop_append_of_le_length (inStep.starts run.start paced.started)]
  refine inStep_set inStep here inStep.there rfl rfl rfl rfl inOrder ?_ ?_
    fun completed => absurd completed open_
  · exact Nat.le_trans (Nat.le_succ _) (Nat.le_of_eq (executed ▸ longer.symm))
  · exact ⟨paced.single, paced.same, results, paced.started, paced.latest, longer⟩

theorem inStep_work (inStep : InStep site job) (live : Live site job) (index : Nat)
    (outcome : Except String String) : ∃ next, InStep (site.work hasTool index outcome) next := by
  unfold work
  cases here : site.runs[index]? with
  | none => exact ⟨job, inStep⟩
  | some run =>
    simp only
    have paced := inStep.paced.get here
    have steady := live.runs.get here
    have stands := paced.stands
    have within := inStep.length_le
    have notMonitor : Not (run.monitor = true) := by
      rw [paced.single]
      exact Bool.false_ne_true
    have open_ : run.point ≠ .closing -> job.status ≠ .completed :=
      fun apart => (steady.open_.resolve_left apart).1
    cases point : run.point with
    | starting =>
      rw [point] at stands
      rcases stands with ⟨noted, start⟩
      refine ⟨BgJobsStore.updateStatus job .running id, ?_⟩
      simp only [if_neg notMonitor]
      unfold put goTo
      simp only [inStep.there]
      refine inStep_set inStep here rfl rfl rfl rfl rfl inStep.inOrder (Nat.le_refl _) ?_ nofun
      refine ⟨paced.single, paced.same, paced.results, paced.started, paced.latest, ?_⟩
      change At job.executionPlan site.executed.length job.progress.lastCompletedStep run.start
        (run.head run.start)
      rw [start, noted]
      exact at_head paced.single paced.same within
    | checking step =>
      rw [point] at stands open_
      simp only
      unfold check
      simp only [inStep.there]
      split
      · exact ⟨job, inStep_leave inStep index stands.1⟩
      · exact ⟨job, inStep_access inStep here rfl rfl (open_ nofun) stands⟩
    | noting step =>
      rw [point] at stands open_
      simp only [if_neg notMonitor]
      unfold note
      rw [inStep.there]
      rcases stands with ⟨noted, executed, inside⟩
      exact ⟨_, inStep_access inStep here rfl rfl (open_ nofun) ⟨executed.symm, executed, inside⟩⟩
    | executing step =>
      rw [point] at open_
      simp only [if_neg notMonitor]
      exact ⟨job, inStep_execute inStep here point outcome (open_ nofun)⟩
    | recording step =>
      rw [point] at stands open_
      unfold note
      rw [inStep.there]
      refine ⟨_, inStep_access inStep here rfl rfl (open_ nofun) ?_⟩
      change At job.executionPlan site.executed.length (step + 1) run.start (run.head (step + 1))
      rw [← (stands : site.executed.length = step + 1)]
      exact at_head paced.single paced.same within
    | completing =>
      rw [point] at stands
      refine ⟨BgJobsStore.updateStatus job .completed
        fun job => { job with result := some run.results }, ?_⟩
      unfold put goTo
      simp only [inStep.there]
      refine inStep_set inStep here rfl rfl rfl rfl rfl inStep.inOrder (Nat.le_refl _) ?_ ?_
      · exact ⟨paced.single, paced.same, paced.results, paced.started, paced.latest, stands.2⟩
      · intro _
        exact ⟨stands.2, run.start, paced.started, paced.latest, congrArg some paced.results⟩
    | closing =>
      rw [point] at stands
      unfold note leave
      rw [inStep.there]
      refine ⟨_, rfl, inStep.single, inStep.inOrder, ?_, fun _ => ?_, inStep.starts, inStep.stored⟩
      · exact .inl (inStep.paced.eraseIdx_eq_nil here)
      · change run.plan.length = site.executed.length
        rw [paced.same]
        exact stands.symm
    | failing error =>
      rw [point] at stands
      exact stands.elim

theorem inStep_kill (inStep : InStep site job) (index : Nat)
    (between : BetweenSteps site (.kill index)) : InStep (site.leave index) job := by
  cases here : site.runs[index]? with
  | none =>
    have kept : site.runs.eraseIdx index = site.runs :=
      List.eraseIdx_of_length_le (List.getElem?_eq_none_iff.mp here)
    unfold leave
    rw [kept]
    exact inStep
  | some run =>
    have stands := (inStep.paced.get here).stands
    rcases between run here with point | ⟨step, point⟩ <;> rw [point] at stands <;>
      exact inStep_leave inStep index stands.1

def Resumable (site : Site) : Prop :=
  site = {} ∨ ∃ job, Live site job ∧ InStep site job

theorem resumable_create (hasTool : String -> Bool) (jobType : String) (plan : List PlanStep)
    (single : jobType ≠ "monitor") : Resumable (step hasTool {} (.create jobType plan)) := by
  rcases @sound_first hasTool (.create jobType plan) with same | ⟨job, live⟩
  · cases congrArg Site.job same
  · refine .inr ⟨job, live, ?_⟩
    cases live.there
    exact ⟨rfl, beq_eq_false_iff_ne.mpr single, List.nil_prefix, atMostOne_nil, fun _ => rfl, nofun,
      nofun⟩

theorem fresh_of_between (input : SiteInput) (between : BetweenSteps site input) :
    Fresh site input := by
  cases input with
  | create | kill => trivial
  | raise => exact between.elim
  | _ => exact between

theorem resumable_step (resumable : Resumable site) (input : SiteInput)
    (between : BetweenSteps site input) : Resumable (site.step hasTool input) := by
  have fresh := fresh_of_between input between
  rcases resumable with same | ⟨job, live, inStep⟩
  · subst same
    cases input with
    | create jobType plan => exact resumable_create hasTool jobType plan between
    | _ => exact .inl rfl
  · have one : ∃ next, InStep (site.step hasTool input) next := by
      cases input with
      | create jobType plan =>
        refine ⟨job, ?_⟩
        change InStep (site.create jobType plan) job
        unfold create
        rw [live.there]
        exact inStep
      | pause => exact ⟨job, inStep_ask inStep .pause⟩
      | resume => exact ⟨job, inStep_ask inStep .resume⟩
      | cancel => exact ⟨job, inStep_ask inStep .cancel⟩
      | recover => exact ⟨job, inStep_ask inStep .recover⟩
      | dispatch index => exact ⟨job, inStep_dispatch inStep index⟩
      | write index => exact inStep_finish inStep index
      | start => exact ⟨job, inStep_start inStep fresh⟩
      | work index outcome => exact inStep_work inStep live index outcome
      | raise index error => exact between.elim
      | kill index => exact ⟨job, inStep_kill inStep index between⟩
      | drop =>
        exact ⟨job, inStep.there, inStep.single, inStep.inOrder, inStep.paced, inStep.idle,
          inStep.starts, inStep.stored⟩
    rcases one with ⟨next, inStep⟩
    rcases keeps_step live input fresh with ⟨other, after, _⟩
    have same : other = next := Option.some.inj (after.there.symm.trans inStep.there)
    exact .inr ⟨next, same ▸ after, inStep⟩

theorem whole_iff (inStep : InStep site job) (completed : job.status = .completed) :
    job.result = some site.executed <-> StartedAtFirst site := by
  rcases inStep.stored completed with ⟨_, start, member, latest, stored⟩
  rw [stored, Option.some.injEq]
  constructor
  · intro whole other there
    have length := congrArg List.length whole
    rw [List.length_drop] at length
    have inside := inStep.starts start member
    have first := latest other there
    omega
  · intro first
    rw [first start member, List.drop_zero]

/-- Every step of the plan is executed once and in order, and the result of a
completed job is whole exactly when no run found a step done before its start. -/
theorem steps_resumed (hasTool : String -> Bool) (inputs : List SiteInput)
    (between : (machine hasTool).EveryStep BetweenSteps inputs) :
    (machine hasTool).EveryState OnceInOrder inputs ∧
      (machine hasTool).EveryState (fun site => ∀ job, site.job = some job ->
        job.status = .completed -> (job.result = some site.executed <-> StartedAtFirst site))
        inputs := by
  have resumable := (machine hasTool).guarded_everyState Resumable BetweenSteps (.inl rfl)
    (fun _ input resumable between => resumable_step resumable input between) inputs between
  constructor
  · intro before rest split job there
    rcases resumable before rest split with none_ | ⟨other, _, inStep⟩
    · rw [none_] at there
      cases there
    · cases inStep.there.symm.trans there
      refine ⟨inStep.inOrder, fun completed => ?_⟩
      refine inStep.inOrder.eq_of_length ?_
      rw [List.length_map, heads_length]
      exact (inStep.stored completed).1
  · intro before rest split job there completed
    rcases resumable before rest split with none_ | ⟨other, _, inStep⟩
    · rw [none_] at there
      cases there
    · cases inStep.there.symm.trans there
      exact whole_iff inStep completed

theorem between_pausedOnce : (machine fun _ => true).EveryStep BetweenSteps pausedOnce := by
  rw [Machine.everyStep_iff_stepsFrom]
  refine ⟨fun same => absurd same (by decide), trivial, forall_here rfl,
    ⟨rfl, forall_here (.inl rfl)⟩, forall_here fun _ => rfl, forall_here nofun, trivial,
    forall_here rfl, forall_here nofun, forall_here nofun, forall_here nofun, forall_here nofun,
    trivial, trivial, forall_here rfl, ⟨rfl, forall_here (.inr rfl)⟩,
    forall_here fun _ => rfl, forall_here nofun, forall_here nofun, forall_here nofun,
    forall_here nofun, forall_here fun _ => rfl, forall_here nofun, trivial, trivial⟩

theorem steps_pausedOnce : (machine fun _ => true).EveryState OnceInOrder pausedOnce ∧
      (machine fun _ => true).EveryState (fun site => ∀ job, site.job = some job ->
        job.status = .completed -> (job.result = some site.executed <-> StartedAtFirst site))
        pausedOnce :=
  steps_resumed (fun _ => true) pausedOnce between_pausedOnce

/-- After a pause in the first of two steps the stored result lacks that step. -/
theorem result_incomplete : Not (∀ (hasTool : String -> Bool) (inputs : List SiteInput),
      (machine hasTool).EveryStep BetweenSteps inputs ->
        (machine hasTool).EveryState OnceInOrder inputs ∧
          (machine hasTool).EveryState WholeResult inputs) := by
  intro claim
  have whole := (claim (fun _ => true) pausedOnce between_pausedOnce).2 pausedOnce []
    (List.append_nil _).symm
  have different : some 1 = some 2 := congrArg (Option.map List.length) (whole _ rfl rfl)
  cases different

end Site

end Tasks
end BreadMind
