import BreadMind.Execution.Machine
import Mathlib.Data.List.Forall2

namespace BreadMind
namespace Execution

universe u v w x

/-!
# Two runs side by side

Two machines which receive inputs that are alike, one by one, stay in related
states and put out what cannot be told apart, provided each pair of steps does.
Both runs may be held to a condition on their steps.
-/

theorem forall₂_append_singleton {First : Type u} {Second : Type v} {alike : First -> Second -> Prop}
    {earlier : List First} {input : First} {others : List Second}
    (inputs : List.Forall₂ alike (earlier ++ [input]) others) : ∃ before other,
      others = before ++ [other] ∧ List.Forall₂ alike earlier before ∧ alike input other := by
  rw [← List.forall₂_reverse_iff, List.reverse_append, List.reverse_singleton,
    List.singleton_append, List.forall₂_cons_left_iff] at inputs
  rcases inputs with ⟨other, before, last, rest, same⟩
  refine ⟨before.reverse, other, ?_, ?_, last⟩
  · rw [← List.reverse_reverse others, same, List.reverse_cons]
  · rw [← List.forall₂_reverse_iff, List.reverse_reverse]
    exact rest

namespace Machine

variable {State Beside : Type u} {Input Other : Type v} {Output Seen : Type w}
variable (machine : Machine State Input) (second : Machine Beside Other)

theorem alike_run (related : State -> Beside -> Prop) {alike : Input -> Other -> Prop}
    {guard : State -> Input -> Prop} {guardToo : Beside -> Other -> Prop}
    {put : State -> Input -> List Output} {putToo : Beside -> Other -> List Output}
    {visible : Output -> Option Seen} (initially : related machine.initial second.initial)
    (kept : ∀ state beside input other, related state beside -> alike input other ->
      guard state input -> guardToo beside other ->
        related (machine.step state input) (second.step beside other) ∧
          (put state input).filterMap visible = (putToo beside other).filterMap visible)
    {inputs : List Input} {others : List Other} (inputsAlike : List.Forall₂ alike inputs others)
    (guarded : machine.EveryStep guard inputs) (likewise : second.EveryStep guardToo others) :
    related (machine.after inputs) (second.after others) ∧
      (machine.outputs put inputs).filterMap visible =
        (second.outputs putToo others).filterMap visible := by
  induction inputs using List.reverseRecOn generalizing others with
  | nil =>
    cases inputsAlike
    exact ⟨initially, rfl⟩
  | append_singleton earlier input ih =>
    rcases forall₂_append_singleton inputsAlike with ⟨before, other, same, rest, last⟩
    subst same
    have first := (machine.everyStep_append_singleton guard earlier input).mp guarded
    have later := (second.everyStep_append_singleton guardToo before other).mp likewise
    rcases ih rest first.1 later.1 with ⟨states, outputs⟩
    rcases kept _ _ input other states last first.2 later.2 with ⟨next, sinks⟩
    rw [after_append_singleton, after_append_singleton, outputs_append_singleton,
      outputs_append_singleton, List.filterMap_append, List.filterMap_append, outputs, sinks]
    exact ⟨next, rfl⟩

/-- Leave some inputs of a run out: what the whole run does to the relation they do
alone, and the other inputs keep it on both sides. -/
theorem without_run (related : State -> State -> Prop) (dropped : Input -> Bool)
    {guard : State -> Input -> Prop} (initially : related machine.initial machine.initial)
    (kept : ∀ state beside input, related state beside -> guard state input ->
      dropped input = false -> related (machine.step state input) (machine.step beside input))
    (silent : ∀ state beside input, related state beside -> guard state input ->
      dropped input = true -> related (machine.step state input) beside)
    (inputs : List Input) (guarded : machine.EveryStep guard inputs) :
    related (machine.after inputs) (machine.after (inputs.filter fun input => !dropped input)) := by
  induction inputs using List.reverseRecOn with
  | nil => exact initially
  | append_singleton earlier input ih =>
    have parts := (machine.everyStep_append_singleton guard earlier input).mp guarded
    have holds := ih parts.1
    rw [after_append_singleton, List.filter_append, List.filter_singleton]
    cases gone : dropped input with
    | false =>
      rw [Bool.not_false, cond_true, after_append_singleton]
      exact kept _ _ input holds parts.2 gone
    | true =>
      rw [Bool.not_true, cond_false, List.append_nil]
      exact silent _ _ input holds parts.2 gone

end Machine

end Execution
end BreadMind
