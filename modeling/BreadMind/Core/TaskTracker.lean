import BreadMind.Base.Values
import BreadMind.Execution.Dict
import BreadMind.Execution.Machine

namespace BreadMind
namespace Core

open Execution

/-!
# Tasks that wait for each other

A task lists the tasks that block it and those that it blocks.  The tracker keeps the second list: it
adds to it when a task is created, and takes out of both what is deleted.
-/

inductive TaskStatus where
  | pending
  | inProgress
  | completed
  | failed
  deriving DecidableEq

structure TrackedTask where
  title : String
  description : String
  status : TaskStatus := .pending
  owner : String
  blocks : List String := []
  blockedBy : List String
  metadata : Dict String Json
  createdAt : Int
  updatedAt : Int

namespace TrackedTask

variable (task : TrackedTask) (taskId : String)

def addBlock : TrackedTask :=
  if taskId ∈ task.blocks then task else { task with blocks := task.blocks ++ [taskId] }

def forget : TrackedTask :=
  { task with blocks := task.blocks.erase taskId, blockedBy := task.blockedBy.erase taskId }

end TrackedTask

abbrev TaskTracker := Dict String TrackedTask

namespace TaskTracker

variable (tasks : TaskTracker) (taskId : String)

/-- `create`, with the identifier that is drawn.  The status and the blocked tasks are the defaults. -/
def create (task : TrackedTask) : TaskTracker :=
  Dict.set taskId { task with status := .pending, blocks := [] }
    (task.blockedBy.foldl (fun tasks depId => Dict.update depId (·.addBlock taskId) tasks) tasks)

def update (now : Int) (status : Option TaskStatus) (title owner : Option String)
    (metadata : Dict String Json) : TaskTracker :=
  Dict.update taskId (fun task => { task with
    status := status.getD task.status
    title := if title.getD "" = "" then task.title else title.getD ""
    owner := owner.getD task.owner
    metadata := metadata.foldl (fun known entry => Dict.set entry.1 entry.2 known) task.metadata
    updatedAt := now }) tasks

def delete : TaskTracker :=
  if taskId ∈ tasks.keys then (Dict.pop taskId tasks).map fun entry => (entry.1, entry.2.forget taskId)
  else tasks

end TaskTracker

inductive TrackerInput where
  | create (taskId : String) (task : TrackedTask)
  | update (taskId : String) (now : Int) (status : Option TaskStatus) (title owner : Option String)
      (metadata : Dict String Json)
  | delete (taskId : String)

def TaskTracker.step (tasks : TaskTracker) : TrackerInput -> TaskTracker
  | .create taskId task => tasks.create taskId task
  | .update taskId now status title owner metadata => tasks.update taskId now status title owner metadata
  | .delete taskId => tasks.delete taskId

def trackerMachine : Machine TaskTracker TrackerInput where
  initial := []
  step := TaskTracker.step

/-! ## The two lists -/

/-- Every task lists the tasks that name it as a blocker, and each of them once. -/
structure Linked (tasks : TaskTracker) : Prop where
  inverse : ∀ taskId task, tasks.lookup taskId = some task -> ∀ other,
    other ∈ task.blocks <-> ∃ blocked, tasks.lookup other = some blocked ∧ taskId ∈ blocked.blockedBy
  once : ∀ taskId task, tasks.lookup taskId = some task -> task.blocks.Nodup

/-- The identifier of a new task is not in use, and no task names it as a blocker already. -/
def Fresh (tasks : TaskTracker) : TrackerInput -> Prop
  | .create taskId task => tasks.lookup taskId = none ∧ taskId ∉ task.blockedBy ∧
      ∀ other blocked, tasks.lookup other = some blocked -> taskId ∉ blocked.blockedBy
  | _ => True

variable {tasks : TaskTracker} {taskId : String}

theorem addBlock_iterate (task : TrackedTask) (count : Nat) :
    ∃ added, (·.addBlock taskId)^[count] task = added ∧ added.blockedBy = task.blockedBy ∧
      (∀ other, other ∈ added.blocks <-> other ∈ task.blocks ∨ count ≠ 0 ∧ other = taskId) ∧
      (task.blocks.Nodup -> added.blocks.Nodup) := by
  induction count with
  | zero => simp
  | succ count ih =>
    rcases ih with ⟨added, same, blockedBy, members, once⟩
    refine ⟨_, rfl, ?_⟩
    rw [Function.iterate_succ_apply', same]
    unfold TrackedTask.addBlock
    split
    · grind
    · grind [List.nodup_append]

theorem linked_create {task : TrackedTask} (linked : Linked tasks)
    (fresh : Fresh tasks (.create taskId task)) : Linked (tasks.create taskId task) := by
  rcases fresh with ⟨free, apart, unnamed⟩
  have found (other : String) : (tasks.create taskId task).lookup other =
      if other = taskId then some { task with status := .pending, blocks := [] }
      else (tasks.lookup other).map ((·.addBlock taskId)^[task.blockedBy.count other]) := by
    rw [← Dict.lookup_foldl_update, ← Dict.lookup_set]
    rfl
  have blockedBy (id other : String) :
      (∃ blocked, (tasks.create taskId task).lookup other = some blocked ∧ id ∈ blocked.blockedBy) <->
        if other = taskId then id ∈ task.blockedBy
        else ∃ blocked, tasks.lookup other = some blocked ∧ id ∈ blocked.blockedBy := by
    rw [found]
    split
    · simp
    · cases tasks.lookup other with
      | none => simp
      | some blocked =>
        rcases @addBlock_iterate taskId blocked (task.blockedBy.count other) with ⟨_, same, kept, _⟩
        simp [same, kept]
  refine ⟨fun id known here other => ?_, fun id known here => ?_⟩
  · rw [found] at here
    rw [blockedBy]
    split at here
    case isTrue same =>
      cases here
      grind
    case isFalse different =>
      rcases Option.map_eq_some_iff.mp here with ⟨before, known, rfl⟩
      rcases @addBlock_iterate taskId before (task.blockedBy.count id) with ⟨_, rfl, _, members, _⟩
      have := linked.inverse id before known other
      grind
  · rw [found] at here
    split at here
    · cases here
      exact List.nodup_nil
    · rcases Option.map_eq_some_iff.mp here with ⟨before, known, rfl⟩
      rcases @addBlock_iterate taskId before (task.blockedBy.count id) with ⟨_, rfl, _, _, once⟩
      exact once (linked.once id before known)

theorem linked_delete (linked : Linked tasks) : Linked (tasks.delete taskId) := by
  unfold TaskTracker.delete
  split
  case isFalse => exact linked
  have found (tasks : TaskTracker) (other : String) :
      List.lookup other (tasks.map fun entry => (entry.1, entry.2.forget taskId)) =
        (tasks.lookup other).map (·.forget taskId) := by
    induction tasks with
    | nil => rfl
    | cons entry rest ih =>
      rw [List.map_cons, List.lookup_cons, List.lookup_cons, ih]
      split <;> rfl
  refine ⟨fun id known here other => ?_, fun id known here => ?_⟩
  all_goals
    rw [found, Dict.lookup_pop] at here
    rcases Option.map_eq_some_iff.mp here with ⟨before, known, rfl⟩
    split at known
    case isTrue => cases known
    have once := linked.once id before known
  · change _ ∈ before.blocks.erase taskId <-> _
    rw [once.mem_erase_iff, linked.inverse id before known, found, Dict.lookup_pop]
    split
    case isTrue gone => simp [gone]
    case isFalse => cases tasks.lookup other <;> simp_all [TrackedTask.forget, List.mem_erase_of_ne]
  · exact once.erase taskId

theorem linked_update (linked : Linked tasks) {change : TrackedTask -> TrackedTask}
    (same : ∀ task, (change task).blocks = task.blocks ∧ (change task).blockedBy = task.blockedBy) :
    Linked (Dict.update taskId change tasks) := by
  have kept (id : String) (task : TrackedTask) :
      (if id = taskId then change task else task).blocks = task.blocks ∧
        (if id = taskId then change task else task).blockedBy = task.blockedBy := by
    split
    · exact same task
    · exact ⟨rfl, rfl⟩
  have found (id : String) : (Dict.update taskId change tasks).lookup id =
      (tasks.lookup id).map fun task => if id = taskId then change task else task := by
    rw [Dict.lookup_update]
    split <;> simp
  refine ⟨fun id known here other => ?_, fun id known here => ?_⟩
  all_goals
    rw [found] at here
    rcases Option.map_eq_some_iff.mp here with ⟨before, known, rfl⟩
    rw [(kept id before).1]
  · rw [linked.inverse id before known, found]
    simp [kept]
  · exact linked.once id before known

/-- As long as identifiers are drawn anew, each of the two lists is what the other one says. -/
theorem linked_always (inputs : List TrackerInput) (fresh : trackerMachine.EveryStep Fresh inputs) :
    trackerMachine.EveryState Linked inputs := by
  refine trackerMachine.guarded_everyState Linked Fresh ⟨nofun, nofun⟩ ?_ inputs fresh
  intro tasks input linked fresh
  cases input with
  | create taskId task => exact linked_create linked fresh
  | update => exact linked_update linked fun _ => ⟨rfl, rfl⟩
  | delete => exact linked_delete linked

def storeTask (blockedBy : List String) : TrackedTask where
  title := "Store"
  description := ""
  owner := ""
  blockedBy := blockedBy
  metadata := []
  createdAt := 0
  updatedAt := 0

/-- Of the blockers one is known and named twice, and one is unknown. -/
theorem linked_unknown : trackerMachine.EveryState Linked [.create "task_0" (storeTask []),
    .create "task_1" (storeTask ["task_0", "task_0", "task_9"]), .delete "task_0"] := by
  refine linked_always _ ((Machine.everyStep_iff_stepsFrom _ _ _).mpr ?_)
  refine ⟨⟨rfl, by decide, nofun⟩, ⟨rfl, by decide, fun other blocked known => ?_⟩, trivial, trivial⟩
  rcases List.mem_singleton.mp (Dict.mem_of_lookup known) with ⟨rfl, rfl⟩
  exact List.not_mem_nil

end Core
end BreadMind
