import BreadMind.AgentLoop.MessageLoop

namespace BreadMind
namespace AgentLoop

open Agent (ToolCall)
open Execution
open Execution.Program

/-!
# What the parts of a loop put down

A part of a loop never takes back what has been done, and it puts down effects
of a few kinds only.  So it keeps every property of the effects that these kinds
of effects keep, whether it returns or raises.
-/

inductive EffectKind where
  | call
  | turn
  | model
  | compaction
  | stream
  | persistence
  deriving DecidableEq

def LoopEffect.kind : LoopEffect -> EffectKind
  | .asked _ | .checked .. | .answered .. | .executed .. => .call
  | .turnEnded => .turn
  | .chatFailed _ => .model
  | .compacting .. => .compaction
  | .streamed .. => .stream
  | .persisting .. => .persistence

def ClosedUnder (kind : EffectKind) (property : List LoopEffect -> Prop) : Prop :=
  ∀ effects effect, effect.kind = kind -> property effects -> property (effects ++ [effect])

variable {World Tools Value Result : Type} {property : List LoopEffect -> Prop}

def Keeps (property : List LoopEffect -> Prop) (program : LoopProgram World Value) : Prop :=
  Ensures (fun state => property state.effects) program (fun _ state => property state.effects)
    (fun _ state => property state.effects)

theorem keeps_ask (answer : Answer World Value) : Keeps property (ask answer) := by
  intro state holds
  have same : (ask answer).run.run state =
      ((answer state.world).1, { state with world := (answer state.world).2 }) := rfl
  rw [same]
  generalize answer state.world = answered
  rcases answered with ⟨result, world⟩
  cases result <;> exact holds

theorem keeps_note {effect : LoopEffect} (closed : ClosedUnder effect.kind property) :
    Keeps property (note effect : LoopProgram World Unit) :=
  ensures_modify fun state holds => closed state.effects effect rfl holds

theorem keeps_pure (value : Value) : Keeps property (pure value : LoopProgram World Value) :=
  ensures_pure fun _ holds => holds

theorem keeps_throw (failure : String) : Keeps property (throw failure : LoopProgram World Value) :=
  ensures_throw fun _ holds => holds

theorem Keeps.bind {first : LoopProgram World Value} {next : Value -> LoopProgram World Result}
    (starts : Keeps property first) (goesOn : ∀ value, Keeps property (next value)) :
    Keeps property (first >>= next) :=
  ensures_bind _ starts goesOn

theorem Keeps.attempt {body : LoopProgram World Value} (runs : Keeps property body) :
    Keeps property (attempt body) := by
  refine Ensures.weaken (ensures_attempt runs) (fun _ holds => holds) ?_ (fun _ _ holds => holds)
  intro outcome state holds
  cases outcome <;> exact holds

def StreamKeeps (property : List LoopEffect -> Prop)
    (program : MessageLoopAgent.StreamProgram World Value) : Prop :=
  Ensures (fun state => property state.1.effects) program (fun _ state => property state.1.effects)
    (fun _ state => property state.1.effects)

theorem Keeps.onFirst {program : LoopProgram World Value} (keeps : Keeps property program) :
    StreamKeeps property (onFirst program) := by
  have runs := @ensures_onFirst _ _ _ _ _ _ _ (fun _ : List StreamEvent => True) _ keeps
  exact Ensures.weaken runs (fun _ holds => ⟨holds, trivial⟩) (fun _ _ holds => holds.1)
    (fun _ _ holds => holds.1)

theorem StreamKeeps.bind {first : MessageLoopAgent.StreamProgram World Value}
    {next : Value -> MessageLoopAgent.StreamProgram World Result}
    (starts : StreamKeeps property first) (goesOn : ∀ value, StreamKeeps property (next value)) :
    StreamKeeps property (first >>= next) :=
  ensures_bind _ starts goesOn

theorem streamKeeps_emit (events : List StreamEvent) :
    StreamKeeps property (MessageLoopAgent.emit events : MessageLoopAgent.StreamProgram World Unit) :=
  ensures_modify fun _ holds => holds

namespace MessageLoopAgent

variable {agent : MessageLoopAgent World Tools} (ctx : AgentContext)

/-! ## The tool phase -/

section Calls

theorem keeps_runPreHook (call : ToolCall) : Keeps property (agent.runPreHook call) := by
  unfold runPreHook
  cases agent.hookRunner with
  | none => exact keeps_pure none
  | some hooks =>
    refine Keeps.bind (keeps_ask _) ?_
    intro result
    split
    · exact keeps_pure none
    · exact keeps_pure _

theorem keeps_collectResult (vars : LoopVars Tools) (call : ToolCall) (result : ToolResult) :
    Keeps property (agent.collectResult vars call result) := by
  unfold collectResult mergedTools runPostHook
  refine Keeps.bind ?_ ?_
  · split
    · exact keeps_ask _
    · exact keeps_pure vars.tools
  · intro tools
    refine Keeps.bind ?_ ?_
    · cases agent.hookRunner with
      | none => exact keeps_pure ()
      | some hooks => exact Keeps.bind (keeps_ask _) fun _ => keeps_pure ()
    · intro _
      exact keeps_pure _

theorem keeps_collectResults (vars : LoopVars Tools) (results : List (ToolCall × ToolResult)) :
    Keeps property (agent.collectResults vars results) := by
  induction results generalizing vars with
  | nil => exact keeps_pure _
  | cons entry rest ih =>
    refine Keeps.bind (keeps_collectResult vars entry.1 entry.2) ?_
    intro collected
    exact Keeps.bind (ih collected.1) fun _ => keeps_pure _

variable (closed : ClosedUnder .call property)
include closed

theorem keeps_checkCall (number : Nat) (call : ToolCall) :
    Keeps property (agent.checkCall number call) := by
  unfold checkCall
  refine Keeps.bind (keeps_note closed) ?_
  intro _
  cases agent.auditLog with
  | none => exact keeps_pure _
  | some record => exact Keeps.bind (keeps_ask _) fun _ => keeps_pure _

theorem keeps_approveCall (number : Nat) (call : ToolCall) (verdict : SafetyVerdict) :
    Keeps property (agent.approveCall number call verdict) := by
  unfold approveCall
  split
  · exact keeps_pure _
  · refine Keeps.bind (keeps_ask _) ?_
    intro response
    refine Keeps.bind (keeps_note closed) ?_
    intro _
    split
    · exact keeps_pure _
    · exact keeps_pure none

theorem keeps_gateCall (vars : LoopVars Tools) (call : ToolCall) :
    Keeps property (agent.gateCall vars call) := by
  unfold gateCall
  refine Keeps.bind (keeps_checkCall closed _ call) ?_
  intro verdict
  split
  · refine Keeps.bind (keeps_approveCall closed _ call verdict) ?_
    intro left
    cases left with
    | none => exact keeps_pure _
    | some approved =>
      refine Keeps.bind (keeps_runPreHook approved) ?_
      intro held
      cases held <;> exact keeps_pure _
  · exact keeps_pure _

theorem keeps_gateCalls (vars : LoopVars Tools) (calls : List ToolCall) :
    Keeps property (agent.gateCalls vars calls) := by
  induction calls generalizing vars with
  | nil => exact keeps_pure _
  | cons call rest ih =>
    refine Keeps.bind (keeps_gateCall closed vars call) ?_
    intro gated
    exact Keeps.bind (ih gated.1) fun _ => keeps_pure _

theorem keeps_noteExecuted (ready : List (Nat × ToolCall)) :
    Keeps property (noteExecuted ready : LoopProgram World Unit) := by
  induction ready with
  | nil => exact keeps_pure ()
  | cons entry rest ih => exact Keeps.bind (keeps_note closed) fun _ => ih

theorem keeps_executeEach (execute : ToolCall -> Answer World ToolResult)
    (ready : List (Nat × ToolCall)) : Keeps property (executeEach execute ready) := by
  induction ready with
  | nil => exact keeps_pure []
  | cons entry rest ih =>
    refine Keeps.bind (keeps_note closed) fun _ => Keeps.bind (keeps_ask _) ?_
    intro result
    exact Keeps.bind ih fun _ => keeps_pure _

theorem keeps_executeCalls (ready : List (Nat × ToolCall)) :
    Keeps property (agent.executeCalls ctx ready) := by
  unfold executeCalls
  split
  · exact keeps_pure []
  · cases agent.toolRegistry.execution with
    | batch executeBatch =>
      refine Keeps.bind (keeps_noteExecuted closed ready) fun _ => ?_
      exact Keeps.bind (keeps_ask _) fun _ => keeps_pure _
    | single execute => exact Keeps.bind (keeps_executeEach closed _ ready) fun _ => keeps_pure _

end Calls

/-! ## The rest of a loop -/

theorem keeps_openConversation (message : String) :
    Keeps property (agent.openConversation message ctx) := by
  unfold openConversation restoreConversation
  refine Keeps.bind ?_ fun _ => keeps_pure _
  split
  · exact keeps_pure none
  · exact keeps_ask _

theorem keeps_persistConversation (closed : ClosedUnder .persistence property)
    (vars : LoopVars Tools) : Keeps property (agent.persistConversation ctx vars) := by
  unfold persistConversation
  refine Keeps.bind (keeps_note closed) ?_
  intro _
  cases agent.conversationStore with
  | none => exact keeps_pure ()
  | some store => exact Keeps.bind (Keeps.attempt (keeps_ask _)) fun _ => keeps_pure ()

theorem keeps_compactMessages (closed : ClosedUnder .compaction property)
    (compactor : AutoCompactor World) (vars : LoopVars Tools) (level : Option Nat) :
    Keeps property (compactMessages compactor vars level) := by
  unfold compactMessages
  refine Keeps.bind (keeps_note closed) ?_
  intro _
  exact Keeps.bind (keeps_ask _) fun _ => keeps_pure _

theorem keeps_autoCompact (closed : ClosedUnder .compaction property) (vars : LoopVars Tools) :
    Keeps property (agent.autoCompact vars) := by
  unfold autoCompact
  cases agent.autoCompactor with
  | none => exact keeps_pure _
  | some compactor =>
    dsimp only
    split
    · exact Keeps.bind (keeps_compactMessages closed compactor vars none) fun _ => keeps_pure _
    · exact keeps_pure _

theorem keeps_chat (closed : ClosedUnder .model property) (vars : LoopVars Tools) :
    Keeps property (agent.chat vars) := by
  unfold chat
  refine Keeps.bind (Keeps.attempt (keeps_ask _)) ?_
  intro outcome
  cases outcome with
  | ok response => exact keeps_pure _
  | error failure => exact Keeps.bind (keeps_note closed) fun _ => keeps_throw failure

theorem keeps_chatRecovering (model : ClosedUnder .model property)
    (compaction : ClosedUnder .compaction property) (vars : LoopVars Tools) :
    Keeps property (agent.chatRecovering vars) := by
  unfold chatRecovering
  refine Keeps.bind (Keeps.attempt (keeps_chat model vars)) ?_
  intro outcome
  cases outcome with
  | ok answered => exact keeps_pure _
  | error failure =>
    dsimp only
    split
    case isFalse => exact keeps_throw failure
    case isTrue =>
      cases agent.autoCompactor with
      | none => exact keeps_pure _
      | some compactor =>
        refine Keeps.bind (keeps_compactMessages compaction compactor vars (some 4)) ?_
        intro compacted
        refine Keeps.bind (Keeps.attempt (keeps_chat model compacted)) ?_
        intro again
        cases again <;> exact keeps_pure _

theorem keeps_afterChat (persistence : ClosedUnder .persistence property)
    (tools : ∀ vars response, Keeps property (agent.runTools ctx vars response))
    {goOn : LoopVars Tools -> LoopProgram World AgentResponse}
    (goesOn : ∀ vars, Keeps property (goOn vars)) (vars : LoopVars Tools)
    (outcome : Except String (LoopVars Tools × LLMResponse)) :
    Keeps property (agent.afterChat ctx goOn vars outcome) := by
  unfold afterChat
  rcases outcome with text | ⟨counted, response⟩
  · exact keeps_pure _
  · dsimp only
    split
    · exact Keeps.bind (keeps_persistConversation ctx persistence _) fun _ => keeps_pure _
    · exact Keeps.bind (tools counted response) fun ran => goesOn ran.1

theorem keeps_turns (model : ClosedUnder .model property)
    (compaction : ClosedUnder .compaction property)
    (persistence : ClosedUnder .persistence property)
    (tools : ∀ vars response, Keeps property (agent.runTools ctx vars response))
    (left : Nat) (vars : LoopVars Tools) : Keeps property (agent.turns ctx left vars) := by
  induction left generalizing vars with
  | zero => exact Keeps.bind (keeps_persistConversation ctx persistence vars) fun _ => keeps_pure _
  | succ left ih =>
    refine Keeps.bind (keeps_autoCompact compaction vars) ?_
    intro compacted
    refine Keeps.bind (keeps_chatRecovering model compaction compacted.1) ?_
    intro outcome
    exact keeps_afterChat ctx persistence tools ih compacted.1 outcome

end MessageLoopAgent

end AgentLoop
end BreadMind
