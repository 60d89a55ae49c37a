import Mathlib.Data.List.Basic

namespace BreadMind
namespace Execution

/-!
# Coroutines and jobs

A coroutine runs without interruption from one suspension to the next; in
between it reads the shared state and writes it.  A job is a coroutine with
its progress.  What a move of a job keeps is the result of running the rest
of it alone.
-/

universe u v w

inductive Coroutine (State : Type u) (Output : Type v) where
  | finished (output : Output)
  | running (write : State -> State) (next : State -> Coroutine State Output)

namespace Coroutine

variable {State : Type u} {Output : Type v} {Other : Type w}

/-- The coroutine alone on the event loop. -/
def run : Coroutine State Output -> State -> State × Output
  | finished output, shared => (shared, output)
  | running write next, shared => (next shared).run (write shared)

def Quiet : Coroutine State Output -> Prop
  | finished _ => True
  | running write next => (∀ shared, write shared = shared) ∧ ∀ shared, (next shared).Quiet

def map (change : Output -> Other) : Coroutine State Output -> Coroutine State Other
  | finished output => finished (change output)
  | running write next => running write fun shared => (next shared).map change

theorem Quiet.run_fst {body : Coroutine State Output} (quiet : body.Quiet) (shared : State) :
    (body.run shared).1 = shared := by
  induction body generalizing shared with
  | finished output => rfl
  | running write next ih =>
    rw [run, quiet.1 shared]
    exact ih shared (quiet.2 shared) shared

theorem Quiet.map {body : Coroutine State Output} (quiet : body.Quiet) (change : Output -> Other) :
    (body.map change).Quiet := by
  induction body with
  | finished output => trivial
  | running write next ih => exact ⟨quiet.1, fun shared => ih shared (quiet.2 shared)⟩

end Coroutine

inductive Job (State : Type u) (Output : Type v) where
  | queued (body : Coroutine State Output)
  | active (body : Coroutine State Output)
  | done (output : Output)

inductive JobEvent (Key : Type w) where
  | started (key : Key)
  | finished (key : Key)

def JobEvent.key {Key : Type w} : JobEvent Key -> Key
  | started key => key
  | finished key => key

namespace Job

variable {State : Type u} {Output : Type v} {Key : Type w}

/-- One move: the shared state, the job and the events after it. -/
def move (key : Key) (shared : State) :
    Job State Output -> Option (State × Job State Output × List (JobEvent Key))
  | queued body => some (shared, active body, [.started key])
  | active (.finished output) => some (shared, done output, [.finished key])
  | active (.running write next) => some (write shared, active (next shared), [])
  | done _ => none

def body : Job State Output -> Coroutine State Output
  | queued body => body
  | active body => body
  | done output => .finished output

def output? : Job State Output -> Option Output
  | done output => some output
  | _ => none

def pending (job : Job State Output) : Bool :=
  job.output?.isNone

def history (key : Key) : Job State Output -> List (JobEvent Key)
  | queued _ => []
  | active _ => [.started key]
  | done _ => [.started key, .finished key]

variable {key : Key} {shared : State} {job : Job State Output}
  {moved : State × Job State Output × List (JobEvent Key)}

theorem run_move (moves : job.move key shared = some moved) :
    moved.2.1.body.run moved.1 = job.body.run shared := by
  match job, moves with
  | queued body, rfl => rfl
  | active (.finished output), rfl => rfl
  | active (.running write next), rfl => rfl

theorem quiet_move (moves : job.move key shared = some moved) (quiet : job.body.Quiet) :
    moved.1 = shared ∧ moved.2.1.body.Quiet := by
  match job, moves with
  | queued body, rfl => exact ⟨rfl, quiet⟩
  | active (.finished output), rfl => exact ⟨rfl, quiet⟩
  | active (.running write next), rfl => exact ⟨quiet.1 shared, quiet.2 shared⟩

theorem history_move (moves : job.move key shared = some moved) :
    moved.2.1.history key = job.history key ++ moved.2.2 := by
  match job, moves with
  | queued body, rfl => rfl
  | active (.finished output), rfl => rfl
  | active (.running write next), rfl => rfl

theorem key_of_move (moves : job.move key shared = some moved) :
    ∀ event ∈ moved.2.2, event.key = key := by
  match job, moves with
  | queued body, rfl => exact fun event member => by rw [List.mem_singleton.1 member]; rfl
  | active (.finished output), rfl => exact fun event member => by rw [List.mem_singleton.1 member]; rfl
  | active (.running write next), rfl => exact fun event member => absurd member List.not_mem_nil

theorem move_isSome (key : Key) (shared : State) (job : Job State Output)
    (unfinished : job.output? = none) : (job.move key shared).isSome := by
  match job, unfinished with
  | queued body, _ => rfl
  | active (.finished output), _ => rfl
  | active (.running write next), _ => rfl

/-- The first job is the second one after a move. -/
def Later (later earlier : Job State Output) : Prop :=
  ∃ shared, ∃ moved : State × Job State Output × List (JobEvent Unit),
    earlier.move () shared = some moved ∧ moved.2.1 = later

theorem later_of_move (moves : job.move key shared = some moved) : Later moved.2.1 job := by
  match job, moves with
  | queued body, rfl => exact ⟨shared, _, rfl, rfl⟩
  | active (.finished output), rfl => exact ⟨shared, _, rfl, rfl⟩
  | active (.running write next), rfl => exact ⟨shared, _, rfl, rfl⟩

theorem acc_done (output : Output) : Acc Later (done output : Job State Output) := by
  refine Acc.intro _ fun later moved => ?_
  rcases moved with ⟨_, _, moves, _⟩
  cases moves

theorem acc_active (body : Coroutine State Output) : Acc Later (active body) := by
  induction body with
  | finished output =>
    refine Acc.intro _ fun later moved => ?_
    rcases moved with ⟨_, _, moves, same⟩
    cases moves
    exact same ▸ acc_done output
  | running write next ih =>
    refine Acc.intro _ fun later moved => ?_
    rcases moved with ⟨shared, _, moves, same⟩
    cases moves
    exact same ▸ ih shared

/-- A job comes to an end, whatever it reads on the way. -/
theorem wellFounded_later : WellFounded (@Later State Output) := by
  constructor
  intro job
  cases job with
  | queued body =>
    refine Acc.intro _ fun later moved => ?_
    rcases moved with ⟨_, _, moves, same⟩
    cases moves
    exact same ▸ acc_active body
  | active body => exact acc_active body
  | done output => exact acc_done output

end Job

end Execution
end BreadMind
