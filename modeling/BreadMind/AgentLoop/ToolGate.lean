import BreadMind.AgentLoop.Effects
import BreadMind.Execution.Machine

namespace BreadMind
namespace AgentLoop

open Agent (ToolCall)
open Execution
open Execution.Program
open MessageLoopAgent

/-!
# What is executed was checked

Every tool which either loop executes was checked under the arguments which the
model gave, and was approved where the guard wanted it and somebody could be
asked.  An approval may bring other arguments, and these are not checked again;
where nobody can be asked, a verdict that wants an approval holds nothing back.
-/

/-- The call was checked with exactly these arguments, and approved if that was wanted. -/
def Gated (past : List LoopEffect) (number : Nat) (call : ToolCall) : Prop :=
  ∃ verdict, .checked number call.name call.arguments verdict ∈ past ∧
    verdict.allowed = true ∧
    (verdict.needsApproval = true -> ∃ arguments response,
      .answered number arguments response ∈ past ∧ response.approved = true)

def ToolsGated (effects : List LoopEffect) : Prop :=
  ∀ before number call after, effects = before ++ .executed number call :: after ->
    Gated before number call

variable {World Tools : Type}

/-- The model asked for the call, and it was checked as it was asked for.  It runs so,
unless an approval which the check wanted has brought other arguments. -/
def Sanctioned (agent : MessageLoopAgent World Tools) (past : List LoopEffect) (number : Nat)
    (call : ToolCall) : Prop :=
  ∃ turn, .asked turn ∈ past ∧ ∃ asked ∈ turn,
    let verdict := agent.safety.check agent.text asked.name asked.arguments
    .checked number asked.name asked.arguments verdict ∈ past ∧ verdict.allowed = true ∧
      (if verdict.needsApproval = true ∧ agent.approvalHandler.isSome = true then
        ∃ response, .answered number asked.arguments response ∈ past ∧
          response.approved = true ∧
          call = { asked with arguments := response.modifiedArguments.getD asked.arguments }
      else call = asked)

def ToolsSanctioned (agent : MessageLoopAgent World Tools) (effects : List LoopEffect) : Prop :=
  ∀ before number call after, effects = before ++ .executed number call :: after ->
    Sanctioned agent before number call

variable {agent : MessageLoopAgent World Tools}

theorem Sanctioned.append {past : List LoopEffect} {number : Nat} {call : ToolCall}
    (sanctioned : Sanctioned agent past number call) (more : List LoopEffect) :
    Sanctioned agent (past ++ more) number call := by
  rcases sanctioned with ⟨turn, told, asked, among, checked, allowed, rest⟩
  refine ⟨turn, List.mem_append_left _ told, asked, among, List.mem_append_left _ checked, allowed, ?_⟩
  split at rest
  case isTrue wanted =>
    rw [if_pos wanted]
    rcases rest with ⟨response, answered, further⟩
    exact ⟨response, List.mem_append_left _ answered, further⟩
  case isFalse unwanted =>
    rw [if_neg unwanted]
    exact rest

structure Standing (agent : MessageLoopAgent World Tools) (turn : List ToolCall)
    (ready : List (Nat × ToolCall)) (effects : List LoopEffect) : Prop where
  asked : .asked turn ∈ effects
  executed : ToolsSanctioned agent effects
  ready : ∀ entry ∈ ready, Sanctioned agent effects entry.1 entry.2

theorem toolsSanctioned_nil : ToolsSanctioned agent [] := by
  intro before number call after split
  cases before <;> cases split

variable {effects : List LoopEffect}

theorem toolsSanctioned_append_singleton {effect : LoopEffect}
    (sanctioned : ToolsSanctioned agent effects)
    (last : ∀ number call, effect = .executed number call ->
      Sanctioned agent effects number call) : ToolsSanctioned agent (effects ++ [effect]) := by
  intro before number call after split
  have each := @forall_split_append LoopEffect
    (fun past entry => ∀ number call, entry = .executed number call ->
      Sanctioned agent past number call) effects [effect]
  refine each ?_ ?_ before (.executed number call) after split number call rfl
  · rintro earlier entry later same number call rfl
    exact sanctioned earlier number call later same
  · rintro earlier entry later same number call rfl
    cases earlier with
    | nil =>
      rw [List.append_nil]
      injection same with here _
      exact last number call here
    | cons head tail =>
      injection same with _ rest
      cases tail <;> cases rest

variable {turn : List ToolCall} {ready : List (Nat × ToolCall)}

theorem Standing.note {effect : LoopEffect} (standing : Standing agent turn ready effects)
    (plain : ∀ number call, effect ≠ .executed number call) :
    Standing agent turn ready (effects ++ [effect]) where
  asked := List.mem_append_left _ standing.asked
  executed := toolsSanctioned_append_singleton standing.executed
    fun number call same => (plain number call same).elim
  ready := fun entry member => (standing.ready entry member).append _

theorem Standing.execute {entry : Nat × ToolCall}
    (standing : Standing agent turn (entry :: ready) effects) :
    Standing agent turn ready (effects ++ [.executed entry.1 entry.2]) where
  asked := List.mem_append_left _ standing.asked
  executed := by
    apply toolsSanctioned_append_singleton standing.executed
    rintro number call same
    cases same
    exact standing.ready entry List.mem_cons_self
  ready := fun other member =>
    (standing.ready other (List.mem_cons_of_mem _ member)).append _

theorem Standing.fewer {fewer : List (Nat × ToolCall)}
    (standing : Standing agent turn ready effects) (among : fewer ⊆ ready) :
    Standing agent turn fewer effects where
  asked := standing.asked
  executed := standing.executed
  ready := fun entry member => standing.ready entry (among member)

theorem Standing.more {number : Nat} {call : ToolCall}
    (standing : Standing agent turn ready effects)
    (sanctioned : Sanctioned agent effects number call) :
    Standing agent turn (ready ++ [(number, call)]) effects where
  asked := standing.asked
  executed := standing.executed
  ready := by
    intro entry member
    rcases List.mem_append.mp member with old | new
    · exact standing.ready entry old
    · cases List.mem_singleton.mp new
      exact sanctioned

/-! ## The checks of one call -/

def Judged (agent : MessageLoopAgent World Tools) (turn : List ToolCall) (ready : List (Nat × ToolCall)) (number : Nat)
    (call : ToolCall) (effects : List LoopEffect) : Prop :=
  Standing agent turn ready effects ∧
    .checked number call.name call.arguments
      (agent.safety.check agent.text call.name call.arguments) ∈ effects

theorem ensures_checkCall (number : Nat) (call : ToolCall) :
    Ensures (fun state => Standing agent turn ready state.effects) (agent.checkCall number call)
      (fun verdict state => Judged agent turn ready number call state.effects ∧
        verdict = agent.safety.check agent.text call.name call.arguments)
      (fun _ state => Standing agent turn ready state.effects) := by
  unfold MessageLoopAgent.checkCall
  refine ensures_bind (fun _ state => Judged agent turn ready number call state.effects) ?_ ?_
  · apply ensures_modify
    intro state standing
    refine ⟨standing.note ?_, List.mem_append_right _ List.mem_cons_self⟩
    intro other executed
    exact LoopEffect.noConfusion
  · intro _
    cases agent.auditLog with
    | none => exact ensures_pure fun state judged => ⟨judged, rfl⟩
    | some record =>
      have asked : Keeps (Judged agent turn ready number call) (ask (record
          ((agent.safety.check agent.text call.name call.arguments).audited call.name
            call.arguments))) := keeps_ask _
      refine ensures_bind (fun _ state => Judged agent turn ready number call state.effects) ?_ ?_
      · exact Ensures.raise asked (fun _ _ judged => judged.1)
      · intro _
        exact ensures_pure fun state judged => ⟨judged, rfl⟩

theorem ensures_approveCall {number : Nat} {call : ToolCall} (among : call ∈ turn)
    (allowed : (agent.safety.check agent.text call.name call.arguments).allowed = true) :
    Ensures (fun state => Judged agent turn ready number call state.effects)
      (agent.approveCall number call (agent.safety.check agent.text call.name call.arguments))
      (fun left state =>
        Standing agent turn (ready ++ (left.map fun approved => (number, approved)).toList)
          state.effects) (fun _ state => Standing agent turn ready state.effects) := by
  unfold MessageLoopAgent.approveCall
  split
  case h_1 unasked =>
    apply ensures_pure
    rintro state ⟨standing, checked⟩
    refine standing.more ⟨turn, standing.asked, call, among, checked, allowed, ?_⟩
    rw [if_neg]
    rintro ⟨wanted, handled⟩
    rw [if_pos wanted] at unasked
    rw [unasked] at handled
    cases handled
  case h_2 requestApproval asking =>
    have wanted : (agent.safety.check agent.text call.name call.arguments).needsApproval = true ∧
        agent.approvalHandler.isSome = true := by
      split at asking
      case isTrue wanted => exact ⟨wanted, by rw [asking]; rfl⟩
      case isFalse => cases asking
    refine ensures_bind (fun _ state => Judged agent turn ready number call state.effects) ?_ ?_
    · exact Ensures.raise (keeps_ask _) (fun _ _ judged => judged.1)
    · intro response
      refine ensures_bind (fun _ state => Judged agent turn ready number call state.effects ∧
        .answered number call.arguments response ∈ state.effects) ?_ ?_
      · apply ensures_modify
        rintro state ⟨standing, checked⟩
        refine ⟨⟨standing.note ?_, List.mem_append_left _ checked⟩,
          List.mem_append_right _ List.mem_cons_self⟩
        intro other executed
        exact LoopEffect.noConfusion
      · intro _
        split
        case isTrue approved =>
          apply ensures_pure
          rintro state ⟨⟨standing, checked⟩, answered⟩
          refine standing.more ⟨turn, standing.asked, call, among, checked, allowed, ?_⟩
          rw [if_pos wanted]
          exact ⟨response, answered, approved, rfl⟩
        case isFalse =>
          apply ensures_pure
          rintro state ⟨⟨standing, _⟩, _⟩
          rw [Option.map_none, Option.toList_none, List.append_nil]
          exact standing

theorem ensures_gateCall (vars : LoopVars Tools) {call : ToolCall} (among : call ∈ turn) :
    Ensures (fun state => Standing agent turn ready state.effects) (agent.gateCall vars call)
      (fun gated state => Standing agent turn (ready ++ gated.2.toList) state.effects)
      (fun _ state => ToolsSanctioned agent state.effects) := by
  have nothing : ∀ {effects : List LoopEffect}, Standing agent turn ready effects ->
      Standing agent turn (ready ++ (none : Option (Nat × ToolCall)).toList) effects := by
    intro effects standing
    rw [Option.toList_none, List.append_nil]
    exact standing
  unfold MessageLoopAgent.gateCall
  refine ensures_bind _ (Ensures.raise (ensures_checkCall (vars.totalToolCalls + 1) call)
    fun _ _ standing => standing.executed) ?_
  intro verdict
  refine ensures_of_fact ?_
  rintro rfl
  split
  case isFalse => exact ensures_pure fun _ judged => nothing judged.1
  case isTrue allowed =>
    refine ensures_bind _ (Ensures.raise (ensures_approveCall among allowed)
      fun _ _ standing => standing.executed) ?_
    intro left
    cases left with
    | none => exact ensures_pure fun _ standing => standing
    | some approved =>
      refine ensures_bind _ (Ensures.raise (keeps_runPreHook approved)
        fun _ _ standing => standing.executed) ?_
      intro held
      cases held with
      | some reason =>
        exact ensures_pure fun _ standing => nothing (standing.fewer (List.subset_append_left _ _))
      | none => exact ensures_pure fun _ standing => standing

theorem ensures_gateCalls (vars : LoopVars Tools) {calls : List ToolCall} (among : calls ⊆ turn) :
    Ensures (fun state => Standing agent turn ready state.effects) (agent.gateCalls vars calls)
      (fun gated state => Standing agent turn (ready ++ gated.2) state.effects)
      (fun _ state => ToolsSanctioned agent state.effects) := by
  induction calls generalizing vars ready with
  | nil =>
    apply ensures_pure
    intro state standing
    change Standing agent turn (ready ++ []) state.effects
    rw [List.append_nil]
    exact standing
  | cons call rest ih =>
    refine ensures_bind _ (ensures_gateCall vars (among List.mem_cons_self)) ?_
    intro gated
    refine ensures_bind _ (ih gated.1 fun other later => among (List.mem_cons_of_mem call later)) ?_
    intro others
    apply ensures_pure
    intro state standing
    rw [← List.append_assoc]
    exact standing

theorem ensures_noteExecuted (ready : List (Nat × ToolCall)) :
    Program.Reaches (fun state : LoopState World => Standing agent turn ready state.effects)
      (fun state => ToolsSanctioned agent state.effects) (MessageLoopAgent.noteExecuted ready) := by
  induction ready with
  | nil => exact ensures_pure fun _ standing => standing.executed
  | cons entry rest ih =>
    refine ensures_bind (fun _ state => Standing agent turn rest state.effects)
      (ensures_modify fun _ standing => standing.execute) ?_
    intro _
    exact ih

theorem ensures_executeEach (execute : ToolCall -> Answer World ToolResult)
    (ready : List (Nat × ToolCall)) :
    Program.Reaches (fun state : LoopState World => Standing agent turn ready state.effects)
      (fun state => ToolsSanctioned agent state.effects)
      (MessageLoopAgent.executeEach execute ready) := by
  induction ready with
  | nil => exact ensures_pure fun _ standing => standing.executed
  | cons entry rest ih =>
    refine ensures_bind (fun _ state => Standing agent turn rest state.effects)
      (ensures_modify fun _ standing => standing.execute) ?_
    intro _
    refine ensures_bind _ (Ensures.raise (keeps_ask (execute entry.2))
      fun _ _ standing => standing.executed) ?_
    intro result
    refine ensures_bind _ ih ?_
    intro others
    exact ensures_pure fun _ sanctioned => sanctioned

theorem ensures_executeCalls (ctx : AgentContext) (ready : List (Nat × ToolCall)) :
    Program.Reaches (fun state => Standing agent turn ready state.effects)
      (fun state => ToolsSanctioned agent state.effects) (agent.executeCalls ctx ready) := by
  unfold MessageLoopAgent.executeCalls
  split
  case isTrue => exact ensures_pure fun _ standing => standing.executed
  case isFalse =>
    cases agent.toolRegistry.execution with
    | batch executeBatch =>
      refine ensures_bind _ (ensures_noteExecuted ready) ?_
      intro _
      refine ensures_bind _ (keeps_ask _) ?_
      intro results
      exact ensures_pure fun _ sanctioned => sanctioned
    | single execute =>
      refine ensures_bind _ (ensures_executeEach _ ready) ?_
      intro results
      exact ensures_pure fun _ sanctioned => sanctioned

theorem toolsSanctioned_closed {kind : EffectKind} (other : kind ≠ .call) :
    ClosedUnder kind (ToolsSanctioned agent) := by
  intro effects effect same sanctioned
  apply toolsSanctioned_append_singleton sanctioned
  rintro number call rfl
  exact (other same.symm).elim

variable (ctx : AgentContext)

theorem keeps_sanctioned_runTools (vars : LoopVars Tools) (response : LLMResponse) :
    Keeps (ToolsSanctioned agent) (agent.runTools ctx vars response) := by
  unfold MessageLoopAgent.runTools
  refine ensures_bind (fun _ state => Standing agent response.toolCalls [] state.effects) ?_ ?_
  · apply ensures_modify
    intro state sanctioned
    refine ⟨List.mem_append_right _ List.mem_cons_self, ?_, fun entry member => by cases member⟩
    apply toolsSanctioned_append_singleton sanctioned
    intro number call same
    cases same
  intro _
  refine ensures_bind _ (ensures_gateCalls _ (List.Subset.refl response.toolCalls)) ?_
  intro gated
  refine ensures_bind _ (ensures_executeCalls ctx gated.2) ?_
  intro results
  refine ensures_bind _ (keeps_collectResults gated.1 results) ?_
  intro collected
  exact Keeps.bind (keeps_note (toolsSanctioned_closed (by decide))) fun _ => keeps_pure collected

theorem keeps_handleMessage (message : String) :
    Keeps (ToolsSanctioned agent) (agent.handleMessage message ctx) :=
  Keeps.bind (keeps_openConversation ctx message) fun vars =>
    keeps_turns ctx (toolsSanctioned_closed (by decide)) (toolsSanctioned_closed (by decide))
      (toolsSanctioned_closed (by decide)) (keeps_sanctioned_runTools ctx) agent.maxTurns vars

/-! ## The streaming loop -/

theorem streamKeeps_streamAnswer (messages : List Message) (content : Option String) :
    StreamKeeps (ToolsSanctioned agent) (agent.streamAnswer messages content) := by
  unfold MessageLoopAgent.streamAnswer
  cases agent.provider.chatStream with
  | none => exact streamKeeps_emit _
  | some chatStream =>
    refine StreamKeeps.bind (Keeps.onFirst (keeps_ask _)) ?_
    intro streamed
    refine StreamKeeps.bind (Keeps.onFirst
      (keeps_note (@toolsSanctioned_closed _ _ agent .stream (by decide)))) ?_
    intro _
    refine StreamKeeps.bind (streamKeeps_emit _) ?_
    intro _
    cases streamed.2 with
    | none => exact ensures_pure fun _ holds => holds
    | some _ => exact streamKeeps_emit _

theorem streamKeeps_streamTurns (left : Nat) (vars : LoopVars Tools) :
    StreamKeeps (ToolsSanctioned agent) (agent.streamTurns ctx left vars) := by
  induction left generalizing vars with
  | zero =>
    refine StreamKeeps.bind ?_ fun _ => streamKeeps_emit _
    exact Keeps.onFirst (keeps_persistConversation ctx (toolsSanctioned_closed (by decide)) vars)
  | succ left ih =>
    refine StreamKeeps.bind (Keeps.onFirst
      (keeps_autoCompact (toolsSanctioned_closed (by decide)) vars)) ?_
    intro compacted
    refine StreamKeeps.bind (streamKeeps_emit _) ?_
    intro _
    refine StreamKeeps.bind (Keeps.onFirst
      (keeps_chat (toolsSanctioned_closed (by decide)) compacted.1)) ?_
    intro answered
    split
    · refine StreamKeeps.bind (streamKeeps_streamAnswer _ _) ?_
      intro _
      exact StreamKeeps.bind (Keeps.onFirst
        (keeps_persistConversation ctx (toolsSanctioned_closed (by decide)) _))
        fun _ => streamKeeps_emit _
    · refine StreamKeeps.bind (streamKeeps_emit _) ?_
      intro _
      refine StreamKeeps.bind (Keeps.onFirst
        (keeps_sanctioned_runTools ctx answered.1 answered.2)) ?_
      intro ran
      exact StreamKeeps.bind (streamKeeps_emit _) fun _ => ih ran.1

theorem streamKeeps_handleMessageStream (message : String) :
    StreamKeeps (ToolsSanctioned agent) (agent.handleMessageStream message ctx) := by
  refine StreamKeeps.bind (Keeps.onFirst (keeps_openConversation ctx message)) ?_
  intro vars
  exact ensures_tryCatch (streamKeeps_streamTurns ctx agent.maxTurns vars)
    fun failure => streamKeeps_emit _

/-- In both loops every tool is executed as its check and its approval have it. -/
theorem loops_toolsSanctioned (agent : MessageLoopAgent World Tools) (world : World)
    (message : String) (ctx : AgentContext) :
    ToolsSanctioned agent (agent.effects world message ctx) ∧
      ToolsSanctioned agent (agent.streamEffects world message ctx) :=
  ⟨Ensures.after (keeps_handleMessage ctx message) toolsSanctioned_nil,
    Ensures.after (streamKeeps_handleMessageStream ctx message) toolsSanctioned_nil⟩

def dictText : Json -> String
  | .obj [(key, .str value)] => "\x7b'" ++ key ++ "': '" ++ value ++ "'\x7d"
  | _ => "\x7b\x7d"

def asciiText : PythonText where
  str := dictText
  lower := String.toLower
  isWord := fun letter => letter.isAlphanum || letter == '_'
  isSpace := Char.isWhitespace

def shellCommand (command : String) : Json := .obj [("command", .str command)]

def askingModel (command : String) : Provider Nat Unit where
  chat := fun _ _ answers =>
    if answers = 0 then (.ok ⟨none, [⟨"tc1", "shell_exec", shellCommand command⟩], 15⟩, 1)
    else (.ok ⟨some "Done.", [], 15⟩, answers + 1)
  chatStream := none
  toolSearch := false

def workingTools : ToolRegistry Nat Unit where
  getSchemas := fun _ => ()
  execution := .batch fun calls _ answers => (.ok (calls.map fun _ => ⟨true, "ok", none⟩), answers)
  mergeResolvedTools := fun tools _ answers => (.ok tools, answers)

def confirmingAgent (command : String) (blocked : List String)
    (handler : Option (String -> Json -> String -> Answer Nat ApprovalResponse)) :
    MessageLoopAgent Nat Unit where
  text := asciiText
  provider := askingModel command
  toolRegistry := workingTools
  safety := { autonomy := "confirm-all", blockedPatterns := blocked }
  maxTurns := 10
  prepareMessage := id
  systemContent := ""
  hookRunner := none
  autoCompactor := none
  outputLimiter := none
  conversationStore := none
  approvalHandler := handler
  auditLog := none

def rewriting : String -> Json -> String -> Answer Nat ApprovalResponse :=
  fun _ _ _ answers => (.ok ⟨true, some (shellCommand "rm -rf /")⟩, answers)

def cli : AgentContext := ⟨"test", "cli", "s1", false⟩

/-- Nobody can be asked, and the call runs. -/
def unaskedEffects : List LoopEffect :=
  (confirmingAgent "rm -rf /" [] none).effects 0 "delete files" cli

/-- The approval puts a blocked command in the place of a harmless one, and it runs. -/
def rewrittenEffects : List LoopEffect :=
  (confirmingAgent "ls" ["rm -rf"] (some rewriting)).effects 0 "list files" cli

theorem executed_ungated : Not (ToolsGated unaskedEffects) ∧ Not (ToolsGated rewrittenEffects) := by
  constructor
  · intro gated
    have shape : ∃ after, unaskedEffects =
        [.asked [⟨"tc1", "shell_exec", shellCommand "rm -rf /"⟩],
          .checked 1 "shell_exec" (shellCommand "rm -rf /") ⟨true, true, "confirm-all mode"⟩] ++
          .executed 1 ⟨"tc1", "shell_exec", shellCommand "rm -rf /"⟩ :: after := ⟨_, rfl⟩
    rcases shape with ⟨after, shape⟩
    rcases gated _ _ _ _ shape with ⟨verdict, checked, _, approved⟩
    rcases List.mem_cons.mp checked with impossible | checked
    · cases impossible
    cases List.mem_singleton.mp checked
    rcases approved rfl with ⟨arguments, response, answered, _⟩
    rcases List.mem_cons.mp answered with impossible | answered
    · cases impossible
    cases List.mem_singleton.mp answered
  · intro gated
    have shape : ∃ after, rewrittenEffects =
        [.asked [⟨"tc1", "shell_exec", shellCommand "ls"⟩],
          .checked 1 "shell_exec" (shellCommand "ls") ⟨true, true, "confirm-all mode"⟩,
          .answered 1 (shellCommand "ls") ⟨true, some (shellCommand "rm -rf /")⟩] ++
          .executed 1 ⟨"tc1", "shell_exec", shellCommand "rm -rf /"⟩ :: after := ⟨_, rfl⟩
    rcases shape with ⟨after, shape⟩
    rcases gated _ _ _ _ shape with ⟨verdict, checked, _, _⟩
    rcases List.mem_cons.mp checked with impossible | checked
    · cases impossible
    rcases List.mem_cons.mp checked with same | other
    · injection same with _ _ arguments _
      injection arguments with fields
      injection fields with field _
      injection field with _ value
      injection value with command
      exact absurd command (by decide)
    · cases List.mem_singleton.mp other

end AgentLoop
end BreadMind
