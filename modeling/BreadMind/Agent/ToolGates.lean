import BreadMind.Agent.ToolExecutor
import BreadMind.Hooks.ToolHooks

namespace BreadMind
namespace Agent

open Execution
open Hooks

/-!
# The gates before a tool

Before a tool runs, the hooks may block the call or rewrite its arguments, and
the arguments are checked against the tool's schema.  What is handed to a tool
or to the sandbox, and after which checks, is recorded step by step.  A shell
command takes a path of its own where there is a sandbox.
-/

/-- The collaborators that stand before a tool.  A validator returns a list of
errors, each with its field; the definitions have the schemas of the tools. -/
structure ToolGates where
  toolTimeout : Nat
  sandbox : Bool
  hookRunner : Option (List ToolHookConfig)
  validator : Option (Json -> Json -> Except PyError (List (String × String)))
  definitions : List (String × Json)

structure DictCall where
  id : String
  name : String
  arguments : Dict String Json

def DictCall.call (call : DictCall) : ToolCall where
  id := call.id
  name := call.name
  arguments := .obj call.arguments

/-- `arguments.get("command", "")` and `arguments.get("workdir")`. -/
def commandOf (arguments : Dict String Json) : Json :=
  (arguments.lookup "command").getD (.str "")

def workdirOf (arguments : Dict String Json) : Json :=
  (arguments.lookup "workdir").getD .null

inductive ExecutionStep where
  | validated (arguments : Json) (errors : List (String × String))
  | sandboxed (command workdir : Json)
  | executed (name : String) (arguments : Json)

def ExecutionStep.runs : ExecutionStep -> Bool
  | validated _ _ => false
  | sandboxed _ _ => true
  | executed _ _ => true

def ExecutionStep.Returned (others : ExecutionAnswers) (result : ToolResult) : ExecutionStep -> Prop
  | validated _ _ => False
  | sandboxed _ _ => others.sandbox = .ok result
  | executed _ _ => others.run = .ok result

namespace ToolGates

variable (isWord : Char -> Bool) (gates : ToolGates) (call : DictCall)

def settings : ExecutorSettings where
  toolTimeout := gates.toolTimeout
  sandbox := gates.sandbox
  hookRunner := gates.hookRunner.isSome
  validator := gates.validator.isSome

/-- What the runner's result comes to for the executor. -/
def preHookOf (result : ToolHookResult) : PreHook :=
  match result.action, result.modifiedInput with
  | .block, _ => .block result.blockReason
  | .modify, some input => .modify (.obj input)
  | _, _ => .proceed

def preHook : Except PyError PreHook :=
  match gates.hookRunner with
  | none => .ok .proceed
  | some hooks => (runPreHooks isWord hooks call.name call.arguments).map preHookOf

variable (name : String)

/-- The validation of some arguments, where there is a validator and a schema for the tool. -/
def validation (input : Json) : Option (Except PyError (List (String × String))) :=
  match gates.validator, gates.definitions.lookup name with
  | some validate, some parameters =>
    if parameters.truthy then some (validate input parameters) else none
  | _, _ => none

/-- The arguments after the hooks; an empty rewriting is taken for none. -/
def input : Except PyError (Except String Json) :=
  match gates.preHook isWord call with
  | .error error => .error error
  | .ok (.block reason) => .ok (.error reason)
  | .ok (.modify input) => .ok (.ok (if input.truthy then input else .obj call.arguments))
  | .ok .proceed => .ok (.ok (.obj call.arguments))

/-- What `_execute_one` validates and runs, in order. -/
def steps : List ExecutionStep :=
  if gates.sandbox && call.name == "shell_exec" then
    [.sandboxed (commandOf call.arguments) (workdirOf call.arguments)]
  else
    match gates.input isWord call with
    | .error _ => []
    | .ok (.error _) => []
    | .ok (.ok input) =>
      match gates.validation call.name input with
      | none => [.executed call.name input]
      | some (.error _) => []
      | some (.ok []) => [.validated input [], .executed call.name input]
      | some (.ok (first :: others)) => [.validated input (first :: others)]

def answers (others : ExecutionAnswers) : ExecutionAnswers :=
  { others with
    preHook := gates.preHook isWord call
    validation :=
      match gates.input isWord call with
      | .ok (.ok input) => (gates.validation call.name input).getD (.ok [])
      | _ => .ok [] }

/-! ## What the executor reports -/

/-- The tool's result as far as it is known, however the call has ended. -/
def resultOf : Except Raised Reported -> Option ToolResult
  | .ok reported => reported.result
  | .error raised => raised.result

section Executor

variable {isWord : Char -> Bool} {gates : ToolGates} {call : DictCall} {result : ToolResult}

theorem resultOf_bind {Value : Type} {asked : Except PyError Value} {raises : PyError -> Raised}
    {next : Value -> Except Raised Reported} (before : ∀ error, (raises error).result = none)
    (known : resultOf (asked.mapError raises >>= next) = some result) :
    ∃ value, asked = .ok value ∧ resultOf (next value) = some result := by
  cases asked with
  | error error => cases (before error).symm.trans known
  | ok value => exact ⟨value, rfl, known⟩

theorem resultOf_postHooked (settings : ExecutorSettings) (timeout : Nat)
    (execution : ExecutionAnswers) (result : ToolResult) :
    resultOf (postHooked settings timeout execution result) = some result := by
  unfold postHooked
  split
  · split <;> rfl
  · rfl

theorem resultOf_concludeRun (settings : ExecutorSettings) (toolGapDetector : Bool) (timeout : Nat)
    (execution : ExecutionAnswers) (result : ToolResult) :
    resultOf (concludeRun settings toolGapDetector timeout execution result) = some result := by
  have hooked := resultOf_postHooked settings timeout execution result
  unfold concludeRun
  split
  · split
    · rfl
    · split
      · exact hooked
      · rfl
  · exact hooked

theorem resultOf_attempt {toolGapDetector : Bool} {others : ExecutionAnswers}
    (known : resultOf (attempt gates.settings toolGapDetector call.call
      (gates.answers isWord call others)) = some result) :
    ∃ step ∈ gates.steps isWord call, step.Returned others result := by
  unfold attempt at known
  unfold steps
  dsimp only at known
  split at known
  case isTrue path =>
    change (gates.sandbox && call.name == "shell_exec") = true at path
    rw [if_pos path]
    rcases resultOf_bind (fun _ => rfl) known with ⟨_, _, known⟩
    rcases resultOf_bind (fun _ => rfl) known with ⟨returned, ran, known⟩
    cases known
    exact ⟨_, List.mem_singleton_self _, ran⟩
  case isFalse path =>
    change ¬(gates.sandbox && call.name == "shell_exec") = true at path
    rw [if_neg path]
    rcases resultOf_bind (fun _ => rfl) known with ⟨hooked, said, known⟩
    have entered : gates.input isWord call = .ok hooked := by
      rw [← said]
      unfold input preHooked settings answers preHook
      cases gates.hookRunner <;> rfl
    rw [entered]
    split at known
    · cases known
    case h_2 input =>
      rcases resultOf_bind (fun _ => rfl) known with ⟨_, _, known⟩
      rcases resultOf_bind (fun _ => rfl) known with ⟨errors, checked, known⟩
      split at known
      · cases known
      · rcases resultOf_bind (fun _ => rfl) known with ⟨_, _, known⟩
        rcases resultOf_bind (fun _ => rfl) known with ⟨returned, ran, known⟩
        rw [resultOf_concludeRun] at known
        cases known
        refine ⟨.executed call.name input, ?_, ran⟩
        have passed : gates.validation call.name input = none ∨
            gates.validation call.name input = some (.ok []) := by
          cases asked : gates.validation call.name input with
          | none => exact .inl rfl
          | some answer =>
            have wired : gates.validator.isSome = true := by
              cases here : gates.validator with
              | none =>
                unfold validation at asked
                rw [here] at asked
                cases asked
              | some _ => rfl
            unfold settings answers at checked
            rw [if_pos wired, entered] at checked
            dsimp only at checked
            rw [asked] at checked
            cases answer with
            | error error => cases checked
            | ok errors =>
              cases checked
              exact .inr rfl
        dsimp only
        rcases passed with absent | clean
        · rw [absent]
          exact List.mem_singleton_self _
        · rw [clean]
          exact List.mem_cons_of_mem _ (List.mem_singleton_self _)

theorem executeOne_result {toolGapDetector : Bool} {others : ExecutionAnswers} {reported : Reported}
    (told : executeOne gates.settings toolGapDetector call.call (gates.answers isWord call others) =
      .ok reported) (known : reported.result = some result) :
    ∃ step ∈ gates.steps isWord call, step.runs = true := by
  have attempted : resultOf (attempt gates.settings toolGapDetector call.call
      (gates.answers isWord call others)) = some result := by
    unfold executeOne at told
    split at told
    · cases told
    · split at told
      case h_1 ended =>
        cases told
        rw [ended]
        exact known
      case h_2 raised ended =>
        split at told
        · cases told
          rw [ended]
          exact known
        · cases told
  rcases resultOf_attempt attempted with ⟨step, member, ran⟩
  refine ⟨step, member, ?_⟩
  cases step with
  | validated => exact ran.elim
  | sandboxed => rfl
  | executed => rfl

end Executor

def verdict : PreVerdict :=
  match gates.hookRunner with
  | none => .passed call.arguments false
  | some hooks => hooksVerdict hooks call.name call.arguments

def Validates : Prop :=
  gates.validator.isSome = true ∧ ∃ parameters,
    gates.definitions.lookup name = some parameters ∧ parameters.truthy = true

def RunsWith (arguments : Dict String Json) : ExecutionStep -> Prop
  | .validated _ _ => False
  | .sandboxed command workdir => command = commandOf arguments ∧ workdir = workdirOf arguments
  | .executed tool input => tool = name ∧ input = .obj arguments

/-- Nothing runs of a call which the hooks block.  Of a call which they rewrite,
nothing runs but with the rewritten arguments, after these have passed the
validation of the tool, if it has one. -/
def Gated : Prop :=
  match gates.verdict call with
  | .blocked _ => ∀ step ∈ gates.steps isWord call, step.runs = false
  | .passed input true => ∀ before step after,
      gates.steps isWord call = before ++ step :: after -> step.runs = true ->
        RunsWith call.name input step ∧
          (gates.Validates call.name -> .validated (.obj input) [] ∈ before)
  | .passed _ false => True

/-- For a shell command that goes to the sandbox: the hooks do not block it, and
where they rewrite it they leave the command and its directory as they are, and
shell commands are not validated. -/
def Unbypassed : Prop :=
  gates.sandbox = true -> call.name = "shell_exec" ->
    match gates.verdict call with
    | .blocked _ => False
    | .passed input true => commandOf call.arguments = commandOf input ∧
        workdirOf call.arguments = workdirOf input ∧ Not (gates.Validates call.name)
    | .passed _ false => True

/-! ## The path through the gates -/

section Path

variable {isWord : Char -> Bool} {gates : ToolGates} {call : DictCall}

theorem input_eq : gates.input isWord call = .ok (match gates.verdict call with
      | .blocked reason => .error reason
      | .passed input _ => .ok (.obj input)) := by
  unfold input preHook verdict
  cases gates.hookRunner with
  | none => rfl
  | some hooks =>
    rcases runPreHooks_tells isWord hooks call.name call.arguments with ⟨result, returned, tells⟩
    have hooked : (runPreHooks isWord hooks call.name call.arguments).map preHookOf =
        .ok (preHookOf result) := by
      rw [returned]
      rfl
    dsimp only
    rw [hooked]
    unfold preHookOf
    cases said : hooksVerdict hooks call.name call.arguments with
    | blocked reason =>
      rw [said] at tells
      rw [tells.1, tells.2]
    | passed input rewritten =>
      rw [said] at tells
      have left := preVerdict_passed said
      cases rewritten with
      | false => rw [(left.1 rfl).2, show result.action = .proceed from tells]
      | true =>
        rw [tells.1, tells.2]
        dsimp only
        split
        case isTrue => rfl
        case isFalse empty =>
          -- only an empty dictionary is rewritten to an empty one
          cases input with
          | cons first others => exact absurd rfl empty
          | nil =>
            have nothing : call.arguments = [] := by
              by_contra some
              exact left.2 some rfl
            rw [nothing]

theorem steps_sandboxed (sandbox : gates.sandbox = true) (shell : call.name = "shell_exec") :
    gates.steps isWord call = [.sandboxed (commandOf call.arguments) (workdirOf call.arguments)] := by
  unfold steps
  rw [if_pos]
  rw [sandbox, shell]
  rfl

theorem steps_other (other : Not (gates.sandbox = true ∧ call.name = "shell_exec")) :
    gates.steps isWord call = match gates.verdict call with
      | .blocked _ => []
      | .passed input _ =>
        match gates.validation call.name (.obj input) with
        | none => [.executed call.name (.obj input)]
        | some (.error _) => []
        | some (.ok []) => [.validated (.obj input) [], .executed call.name (.obj input)]
        | some (.ok (first :: others)) => [.validated (.obj input) (first :: others)] := by
  unfold steps
  rw [if_neg, input_eq]
  · cases gates.verdict call <;> rfl
  · intro both
    rw [Bool.and_eq_true, beq_iff_eq] at both
    exact other both

theorem validation_isSome {name : String} {input : Json} (validates : gates.Validates name) :
    (gates.validation name input).isSome = true := by
  rcases validates with ⟨wired, parameters, found, given⟩
  unfold validation
  rcases Option.isSome_iff_exists.mp wired with ⟨validate, here⟩
  rw [here, found]
  dsimp only
  rw [if_pos given]
  rfl

theorem singleton_split {Item : Type} {item other : Item} {before after : List Item}
    (split : [item] = before ++ other :: after) : before = [] ∧ other = item := by
  rcases List.singleton_eq_append_iff.mp split with ⟨nothing, rest⟩ | ⟨_, impossible⟩
  · exact ⟨nothing, (List.cons.inj rest).1⟩
  · cases impossible

theorem gated_other (other : Not (gates.sandbox = true ∧ call.name = "shell_exec")) :
    gates.Gated isWord call := by
  have path := @steps_other isWord gates call other
  unfold Gated
  cases said : gates.verdict call with
  | blocked reason =>
    rw [said] at path
    rw [path]
    exact fun step member => (nomatch member)
  | passed input rewritten =>
    cases rewritten with
    | false => trivial
    | true =>
      rw [said] at path
      dsimp only at path ⊢
      intro before step after split runs
      rw [path] at split
      cases checked : gates.validation call.name (.obj input) with
      | none =>
        rw [checked] at split
        rcases singleton_split split with ⟨rfl, rfl⟩
        refine ⟨⟨rfl, rfl⟩, fun validates => ?_⟩
        have some := @validation_isSome gates call.name (.obj input) validates
        rw [checked] at some
        cases some
      | some answer =>
        rw [checked] at split
        rcases answer with error | ⟨_ | ⟨first, others⟩⟩
        · exact absurd split.symm (List.append_ne_nil_of_right_ne_nil _ (List.cons_ne_nil _ _))
        · cases before with
          | nil =>
            cases split
            cases runs
          | cons head tail =>
            have parts := List.cons.inj split
            rcases singleton_split parts.2 with ⟨rfl, rfl⟩
            rw [← parts.1]
            exact ⟨⟨rfl, rfl⟩, fun _ => List.mem_singleton.mpr rfl⟩
        · rcases singleton_split split with ⟨_, rfl⟩
          cases runs

end Path

/-- What the hooks block does not run, and what they rewrite runs only rewritten and
validated, exactly if the call does not go to the sandbox past a hook that has
something to say. -/
theorem gated_iff (isWord : Char -> Bool) (gates : ToolGates) (call : DictCall) :
    gates.Gated isWord call <-> gates.Unbypassed call := by
  by_cases path : gates.sandbox = true ∧ call.name = "shell_exec"
  · have only := @steps_sandboxed isWord gates call path.1 path.2
    unfold Gated Unbypassed
    rw [only]
    cases gates.verdict call with
    | blocked reason =>
      refine iff_of_false ?_ (fun free => free path.1 path.2)
      intro none
      cases none _ (List.mem_singleton.mpr rfl)
    | passed input rewritten =>
      cases rewritten with
      | false => exact iff_of_true trivial fun _ _ => trivial
      | true =>
        dsimp only
        constructor
        · intro gated _ _
          have here := gated [] _ [] rfl rfl
          exact ⟨here.1.1, here.1.2, fun validates => (nomatch here.2 validates)⟩
        · intro free before step after split _
          rcases singleton_split split with ⟨rfl, rfl⟩
          have same := free path.1 path.2
          exact ⟨⟨same.1, same.2.1⟩, fun validates => absurd validates same.2.2⟩
  · refine iff_of_true (gated_other path) ?_
    intro sandbox shell
    exact absurd ⟨sandbox, shell⟩ path

def noShell : ToolHookConfig where
  name := "no-shell"
  hookType := .preToolUse
  toolPattern := "shell_*"
  handler := fun _ _ => .ok (some { action := .block, blockReason := "no shell" })

def sandboxedShell : ToolGates where
  toolTimeout := 30
  sandbox := true
  hookRunner := some [noShell]
  validator := none
  definitions := []

/-- Beside a sandbox the hook is not asked. -/
theorem sandboxedShell_bypassed : Not (sandboxedShell.Gated Char.isAlphanum
    { id := "call-1", name := "shell_exec", arguments := [("command", .str "rm -rf /srv")] }) := by
  intro gated
  have said : sandboxedShell.verdict
      { id := "call-1", name := "shell_exec", arguments := [("command", .str "rm -rf /srv")] } =
        .blocked "no shell" := rfl
  unfold Gated at gated
  rw [said] at gated
  cases gated _ (List.mem_singleton.mpr rfl)

end ToolGates

end Agent
end BreadMind
