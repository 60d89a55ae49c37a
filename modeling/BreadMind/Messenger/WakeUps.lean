import BreadMind.Execution.Machine

namespace BreadMind
namespace Messenger

open Execution

/-!
# The wake-ups of the outbox loop

The loop runs batches and waits after one that has published nothing.  A
notification sets the event for which it waits; once the wait is over, by the
event or by the timeout, the event is cleared and the next batch begins, with
nothing awaited in between.  A batch that raises counts as an empty one, and it
may raise before its `SELECT`.

Counts of the notifications delivered when the last batch and the last `SELECT`
began are kept beside the loop.
-/

inductive LoopPhase where
  /-- In a batch whose `SELECT` has not begun. -/
  | acquiring
  | dispatching
  | waiting
  /-- The wait is over, and the event not yet cleared. -/
  | resuming
  | cancelled
  deriving DecidableEq

structure DispatcherLoop where
  phase : LoopPhase := .acquiring
  wake : Bool := false
  delivered : Nat := 0
  begun : Nat := 0
  selected : Nat := 0
  /-- The last batch raised before its `SELECT`. -/
  failedEarly : Bool := false

inductive LoopInput where
  /-- The `NOTIFY` callback. -/
  | notify
  | select
  /-- The batch returns the number of rows which it has published. -/
  | returns (published : Nat)
  | raises
  | woken
  | timeout
  | resume
  | cancel

namespace DispatcherLoop

variable (loop : DispatcherLoop)

def beginBatch : DispatcherLoop :=
  { loop with phase := .acquiring, begun := loop.delivered, failedEarly := false }

def step : LoopInput -> DispatcherLoop
  | .notify => { loop with wake := true, delivered := loop.delivered + 1 }
  | .select =>
    if loop.phase = .acquiring then { loop with phase := .dispatching, selected := loop.delivered }
    else loop
  | .returns published =>
    if loop.phase = .dispatching then
      if published = 0 then { loop with phase := .waiting } else loop.beginBatch
    else loop
  | .raises =>
    match loop.phase with
    | .acquiring => { loop with phase := .waiting, failedEarly := true }
    | .dispatching => { loop with phase := .waiting }
    | _ => loop
  | .woken =>
    if loop.phase = .waiting ∧ loop.wake = true then { loop with phase := .resuming } else loop
  | .timeout => if loop.phase = .waiting then { loop with phase := .resuming } else loop
  | .resume => if loop.phase = .resuming then { loop with wake := false }.beginBatch else loop
  | .cancel => { loop with phase := .cancelled }

/-- The loop waits, and nothing has woken it. -/
def Parked : Prop := loop.phase = .waiting ∧ loop.wake = false

/-- Every notification is followed by a batch, and by its `SELECT` unless the batch raised before. -/
structure Heard : Prop where
  batch : loop.begun = loop.delivered
  selection : loop.selected = loop.delivered ∨ loop.failedEarly = true

structure Attentive : Prop where
  batch : loop.phase ≠ .resuming -> loop.phase ≠ .cancelled -> loop.wake = false ->
    loop.begun = loop.delivered
  selection : loop.phase = .dispatching ∨ loop.phase = .waiting -> loop.wake = false ->
    loop.selected = loop.delivered ∨ loop.failedEarly = true

variable {loop}

theorem attentive_acquiring (acquires : loop.phase = .acquiring) (heard : loop.begun = loop.delivered) :
    loop.Attentive :=
  ⟨fun _ _ _ => heard, fun phase => by simp [acquires] at phase⟩

theorem Attentive.waits (attentive : loop.Attentive) (runs : loop.phase = .dispatching) :
    Attentive { loop with phase := .waiting } where
  batch _ _ := attentive.batch (by simp [runs]) (by simp [runs])
  selection _ := attentive.selection (.inl runs)

theorem attentive_step (attentive : loop.Attentive) (input : LoopInput) :
    (loop.step input).Attentive := by
  cases input <;> dsimp only [step]
  case notify => exact ⟨fun _ _ unset => (nomatch unset), fun _ unset => (nomatch unset)⟩
  case select =>
    split
    case isTrue acquires =>
      exact ⟨fun _ _ => attentive.batch (by simp [acquires]) (by simp [acquires]),
        fun _ _ => .inl rfl⟩
    case isFalse => exact attentive
  case returns published =>
    split
    case isTrue runs =>
      split
      · exact attentive.waits runs
      · exact attentive_acquiring rfl rfl
    case isFalse => exact attentive
  case raises =>
    split
    case h_1 acquires =>
      exact ⟨fun _ _ => attentive.batch (by simp [acquires]) (by simp [acquires]),
        fun _ _ => .inr rfl⟩
    case h_2 runs => exact attentive.waits runs
    case h_3 => exact attentive
  case resume =>
    split
    · exact attentive_acquiring rfl rfl
    · exact attentive
  case cancel => exact ⟨fun _ live => absurd rfl live, fun phase => by simp at phase⟩
  all_goals
    split
    · exact ⟨fun ended => absurd rfl ended, fun phase => by simp at phase⟩
    · exact attentive

end DispatcherLoop

def dispatcherLoop : Machine DispatcherLoop LoopInput where
  initial := {}
  step := DispatcherLoop.step

/-- Whenever the loop waits with its event unset, every notification has been heard. -/
theorem parked_heard (inputs : List LoopInput) :
    dispatcherLoop.EveryState (fun loop => loop.Parked -> loop.Heard) inputs := by
  intro before rest split parked
  have attentive := dispatcherLoop.invariant_after DispatcherLoop.Attentive
    (DispatcherLoop.attentive_acquiring rfl rfl)
    (fun _ input holds => DispatcherLoop.attentive_step holds input) before
  exact ⟨attentive.batch (by simp [parked.1]) (by simp [parked.1]) parked.2,
    attentive.selection (.inr parked.1) parked.2⟩

/-- The batch to which a notification has led finds no connection, and the loop waits again, without
a `SELECT` since. -/
theorem heard_unselected : ¬ dispatcherLoop.EveryState
    (fun loop => loop.Parked -> loop.selected = loop.delivered)
    [.select, .returns 0, .notify, .woken, .resume, .raises] := by
  intro every
  have selected := every _ [] (List.append_nil _).symm ⟨rfl, rfl⟩
  revert selected
  decide

end Messenger
end BreadMind
