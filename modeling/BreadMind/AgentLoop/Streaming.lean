import BreadMind.AgentLoop.ToolGate

namespace BreadMind
namespace AgentLoop

open Agent (ToolCall)
open Execution
open Execution.Program

/-!
# One loop beside the other

Both loops are started on the same conversation with the same collaborators.
They execute and persist the same as long as no overflow of the context is to
be survived, and what the stream sent is what was persisted if the model said
the same thing twice, in one piece, before the turns ran out.
-/

/-! ## What is compared -/

def LoopEffect.isDeed : LoopEffect -> Bool
  | .executed .. | .compacting .. | .persisting .. => true
  | _ => false

def contentText (content : Option String) : List Char :=
  (content.getD "").toList

def chunksText (chunks : List String) : List Char :=
  chunks.flatMap String.toList

def StreamEvent.sentText : StreamEvent -> List Char
  | .text chunk => chunk.toList
  | _ => []

def textOf (events : List StreamEvent) : List Char :=
  events.flatMap StreamEvent.sentText

def replyText (messages : List Message) : List Char :=
  match messages.getLast? with
  | none => []
  | some message =>
    if message.role = .assistant ∧ message.toolCalls.isEmpty = true then
      contentText message.content
    else []

def LoopEffect.persistedText : LoopEffect -> List Char
  | .persisting messages _ => replyText messages
  | _ => []

def persistedText (effects : List LoopEffect) : List Char :=
  effects.flatMap LoopEffect.persistedText

/-- The loops did the same, and the stream's text is what was persisted. -/
def Agree (plain stream : List LoopEffect) (events : List StreamEvent) : Prop :=
  plain.filter LoopEffect.isDeed = stream.filter LoopEffect.isDeed ∧
    textOf events = persistedText stream

def LoopEffect.isTurnEnd : LoopEffect -> Bool
  | .turnEnded => true
  | _ => false

variable {World Tools : Type}

def MessageLoopAgent.Unrestored (agent : MessageLoopAgent World Tools) (world : World)
    (ctx : AgentContext) : Prop :=
  ∃ failure,
    ((agent.restoreConversation ctx).run.run ⟨world, []⟩).1 = .error failure

/-- How the model has to answer the streaming loop: no overflow where there is
a compactor, the same text when it is streamed, nothing of it before the stream
breaks off, and no more turns of tools than fit. -/
structure Faithful (agent : MessageLoopAgent World Tools) (world : World) (ctx : AgentContext)
    (effects : List LoopEffect) : Prop where
  survives : ∀ failure, .chatFailed failure ∈ effects -> agent.overflows failure = true ->
    agent.autoCompactor.isNone = true
  repeats : ∀ content chunks failure, .streamed content chunks failure ∈ effects ->
    chunksText chunks = if failure.isSome then [] else contentText content
  answers : effects.countP LoopEffect.isTurnEnd < agent.maxTurns ∨ agent.Unrestored world ctx

theorem textOf_append (first second : List StreamEvent) :
    textOf (first ++ second) = textOf first ++ textOf second :=
  List.flatMap_append

theorem persistedText_append (first second : List LoopEffect) :
    persistedText (first ++ second) = persistedText first ++ persistedText second :=
  List.flatMap_append

theorem textOf_chunks (chunks : List String) : textOf (chunks.map .text) = chunksText chunks := by
  unfold textOf
  rw [List.flatMap_map]
  rfl

theorem textOf_wholeText (content : Option String) :
    textOf (MessageLoopAgent.wholeText content) = contentText content := by
  unfold MessageLoopAgent.wholeText
  split
  · rfl
  · rfl
  · exact List.append_nil _

theorem replyText_push (vars : LoopVars Tools) (content : Option String) :
    replyText (vars.push { role := .assistant, content := content }).messages =
      contentText content := by
  unfold LoopVars.push replyText
  rw [List.getLast?_concat]
  rfl

/-- Nothing was streamed or persisted yet, and no failure was an overflow to survive. -/
structure Quiet (agent : MessageLoopAgent World Tools) (ended : Nat) (effects : List LoopEffect) :
    Prop where
  unsent : ∀ content chunks failure, Not (.streamed content chunks failure ∈ effects)
  unsaved : ∀ messages tokens, Not (.persisting messages tokens ∈ effects)
  survives : ∀ failure, .chatFailed failure ∈ effects -> agent.overflows failure = true ->
    agent.autoCompactor.isNone = true
  turns : effects.countP LoopEffect.isTurnEnd = ended

variable {agent : MessageLoopAgent World Tools}

theorem Quiet.append_singleton {ended : Nat} {effects : List LoopEffect} {effect : LoopEffect}
    (quiet : Quiet agent ended effects)
    (unsent : effect.kind ≠ .stream) (unsaved : effect.kind ≠ .persistence)
    (survives : ∀ failure, effect = .chatFailed failure -> agent.overflows failure = true ->
      agent.autoCompactor.isNone = true) :
    Quiet agent (ended + [effect].countP LoopEffect.isTurnEnd) (effects ++ [effect]) where
  unsent := by
    intro content chunks failure member
    rcases List.mem_append.mp member with old | new
    · exact quiet.unsent content chunks failure old
    · exact unsent (List.mem_singleton.mp new ▸ rfl)
  unsaved := by
    intro messages tokens member
    rcases List.mem_append.mp member with old | new
    · exact quiet.unsaved messages tokens old
    · exact unsaved (List.mem_singleton.mp new ▸ rfl)
  survives := by
    intro failure member
    rcases List.mem_append.mp member with old | new
    · exact quiet.survives failure old
    · exact survives failure (List.mem_singleton.mp new).symm
  turns := by
    rw [List.countP_append, quiet.turns]

variable {ended : Nat}

theorem quiet_closed {kind : EffectKind} (unsent : kind ≠ .stream)
    (unsaved : kind ≠ .persistence) (answered : kind ≠ .model) (within : kind ≠ .turn) :
    ClosedUnder kind (Quiet agent ended) := by
  rintro effects effect rfl quiet
  have next := quiet.append_singleton unsent unsaved ?_
  · have same : [effect].countP LoopEffect.isTurnEnd = 0 := by
      cases effect with
      | turnEnded => exact (within rfl).elim
      | _ => rfl
    rw [same] at next
    exact next
  · rintro failure rfl
    exact (answered rfl).elim

theorem Quiet.persistedText_eq {effects : List LoopEffect}
    (quiet : Quiet agent ended effects) : persistedText effects = [] := by
  apply List.flatMap_eq_nil_iff.mpr
  intro effect member
  cases effect with
  | persisting messages tokens => exact (quiet.unsaved messages tokens member).elim
  | _ => rfl

inductive StreamedAs (content : Option String) : List LoopEffect -> List Char -> Prop where
  | whole : StreamedAs content [] (contentText content)
  | chunks (chunks : List String) (failure : Option String) :
      StreamedAs content [.streamed content chunks failure]
        (chunksText chunks ++ if failure.isSome then contentText content else [])

inductive Ending (agent : MessageLoopAgent World Tools) :
    List LoopEffect -> List LoopEffect -> List Char -> Prop where
  | stopped (ended : Nat) (common : List LoopEffect) (quiet : Quiet agent ended common)
      (few : ended < agent.maxTurns) : Ending agent common common []
  | overflowed (common more : List LoopEffect) (failure : String) (messages : List Message)
      (overflows : agent.overflows failure = true)
      (compactor : agent.autoCompactor.isSome = true) :
      Ending agent (common ++ [.chatFailed failure] ++ [.compacting (some 4) messages] ++ more)
        (common ++ [.chatFailed failure]) []
  | answered (ended : Nat) (common added : List LoopEffect) (content : Option String)
      (messages : List Message) (tokens : Nat) (text : List Char)
      (quiet : Quiet agent ended common) (few : ended < agent.maxTurns)
      (streamed : StreamedAs content added text) (reply : replyText messages = contentText content) :
      Ending agent (common ++ [.persisting messages tokens])
        (common ++ added ++ [.persisting messages tokens]) text
  | exhausted (common : List LoopEffect) (messages : List Message) (tokens : Nat)
      (quiet : Quiet agent agent.maxTurns common) (reply : replyText messages = []) :
      Ending agent (common ++ [.persisting messages tokens]) (common ++ [.persisting messages tokens])
        "Max turns reached.".toList

/-! ## The parts of a turn -/

theorem ensures_attempt_ask {Value : Type} (answer : Answer World Value)
    (before : List LoopEffect) :
    Ensures (fun state => state.effects = before) (attempt (ask answer))
      (fun _ state => state.effects = before) (fun _ _ => False) := by
  have asked : Keeps (fun effects => effects = before) (ask answer) := keeps_ask answer
  refine Ensures.weaken (ensures_attempt asked) (fun _ same => same) ?_
    (fun _ _ impossible => impossible)
  intro outcome state same
  cases outcome <;> exact same

theorem ensures_persistConversation (ctx : AgentContext) (vars : LoopVars Tools)
    (before : List LoopEffect) :
    Ensures (fun state => state.effects = before) (agent.persistConversation ctx vars)
      (fun _ state => state.effects = before ++ [.persisting vars.messages vars.totalTokens])
      (fun _ _ => False) := by
  unfold MessageLoopAgent.persistConversation
  refine ensures_bind
    (fun _ state => state.effects = before ++ [.persisting vars.messages vars.totalTokens]) ?_ ?_
  · apply ensures_modify
    rintro state rfl
    rfl
  · intro _
    cases agent.conversationStore with
    | none => exact ensures_pure fun _ same => same
    | some store =>
      exact ensures_bind _ (ensures_attempt_ask _ _) fun _ => ensures_pure fun _ same => same

theorem ensures_chat (vars : LoopVars Tools) (before : List LoopEffect) :
    Ensures (fun state => state.effects = before) (agent.chat vars)
      (fun _ state => state.effects = before)
      (fun failure state => state.effects = before ++ [.chatFailed failure]) := by
  unfold MessageLoopAgent.chat
  refine ensures_bind (fun _ state => state.effects = before) ?_ ?_
  · exact Ensures.raise (ensures_attempt_ask _ before) (fun _ _ impossible => impossible.elim)
  · intro outcome
    cases outcome with
    | ok response => exact ensures_pure fun _ same => same
    | error failure =>
      refine ensures_bind (fun _ state => state.effects = before ++ [.chatFailed failure]) ?_
        fun _ => ensures_throw fun _ same => same
      apply ensures_modify
      rintro state rfl
      rfl

theorem beside_silent {Value : Type} {body : LoopProgram World Value}
    {before : LoopState World -> Prop} {returned : Value -> LoopState World -> Prop}
    {raised : String -> LoopState World -> Prop} (runs : Ensures before body returned raised) :
    Ensures (fun state => before state.1 ∧ textOf state.2 = []) (onFirst body)
      (fun value state => returned value state.1 ∧ textOf state.2 = [])
      (fun failure state => raised failure state.1 ∧ textOf state.2 = []) :=
  @ensures_onFirst _ _ _ _ _ _ _ (fun sent => textOf sent = []) _ runs

theorem ensures_streamAnswer (messages : List Message) (content : Option String)
    (before : List LoopEffect) :
    Ensures (fun state => state.1.effects = before ∧ textOf state.2 = [])
      (agent.streamAnswer messages content)
      (fun _ state => ∃ added, state.1.effects = before ++ added ∧
        StreamedAs content added (textOf state.2)) (fun _ _ => False) := by
  unfold MessageLoopAgent.streamAnswer
  cases agent.provider.chatStream with
  | none =>
    apply ensures_modify
    rintro ⟨state, sent⟩ ⟨same, silent⟩
    refine ⟨[], ?_, ?_⟩
    · rw [List.append_nil]
      exact same
    · change StreamedAs content [] (textOf (sent ++ MessageLoopAgent.wholeText content))
      rw [textOf_append, textOf_wholeText, silent]
      exact .whole
  | some chatStream =>
    have asked : Ensures (fun state : LoopState World => state.effects = before)
        (ask fun world => (.ok (chatStream messages world).1, (chatStream messages world).2))
        (fun _ state => state.effects = before) (fun _ _ => False) := fun _ same => same
    refine ensures_bind (fun _ state => state.1.effects = before ∧ textOf state.2 = [])
      (Ensures.raise (beside_silent asked) (fun _ _ impossible => impossible.1)) ?_
    intro streamed
    have noted : Ensures (fun state : LoopState World => state.effects = before)
        (note (.streamed content streamed.1 streamed.2))
        (fun _ state => state.effects = before ++ [.streamed content streamed.1 streamed.2])
        (fun _ _ => False) :=
      ensures_modify fun state same => congrArg (· ++ [_]) same
    refine ensures_bind (fun _ state => state.1.effects =
        before ++ [.streamed content streamed.1 streamed.2] ∧ textOf state.2 = [])
      (Ensures.raise (beside_silent noted) (fun _ _ impossible => impossible.1)) ?_
    intro _
    refine ensures_bind (fun _ state => state.1.effects =
        before ++ [.streamed content streamed.1 streamed.2] ∧
          textOf state.2 = chunksText streamed.1) ?_ ?_
    · apply ensures_modify
      rintro state ⟨same, silent⟩
      refine ⟨same, ?_⟩
      change textOf (state.2 ++ streamed.1.map .text) = _
      rw [textOf_append, silent, textOf_chunks]
      rfl
    · intro _
      rcases streamed with ⟨chunks, failure⟩
      cases failure with
      | none =>
        apply ensures_pure
        rintro state ⟨same, text⟩
        refine ⟨_, same, ?_⟩
        rw [text, ← List.append_nil (chunksText chunks)]
        exact .chunks chunks none
      | some failure =>
        apply ensures_modify
        rintro state ⟨same, text⟩
        refine ⟨_, same, ?_⟩
        change StreamedAs content _ (textOf (state.2 ++ MessageLoopAgent.wholeText content))
        rw [textOf_append, text, textOf_wholeText]
        exact .chunks chunks (some failure)

/-! ## A turn of tools does not end a conversation with an answer -/

section Tools

variable {property : List LoopEffect -> Prop}

theorem replyText_tell (vars : LoopVars Tools) (call : ToolCall) (content : String) :
    replyText (vars.tell call content).messages = [] := by
  unfold LoopVars.tell LoopVars.push replyText
  rw [List.getLast?_concat]
  rfl

variable {vars : LoopVars Tools}

theorem ensures_gateCall_unreplied (closed : ClosedUnder .call property)
    (unreplied : replyText vars.messages = []) (call : ToolCall) :
    Ensures (fun state => property state.effects) (agent.gateCall vars call)
      (fun gated state => property state.effects ∧ replyText gated.1.messages = [])
      (fun _ state => property state.effects) := by
  unfold MessageLoopAgent.gateCall
  refine ensures_bind _ (MessageLoopAgent.keeps_checkCall closed _ call) ?_
  intro verdict
  split
  · refine ensures_bind _ (MessageLoopAgent.keeps_approveCall closed _ call verdict) ?_
    intro left
    cases left with
    | none => exact ensures_pure fun _ holds => ⟨holds, replyText_tell _ call _⟩
    | some approved =>
      refine ensures_bind _ (MessageLoopAgent.keeps_runPreHook approved) ?_
      intro held
      cases held with
      | none => exact ensures_pure fun _ holds => ⟨holds, unreplied⟩
      | some reason => exact ensures_pure fun _ holds => ⟨holds, replyText_tell _ call _⟩
  · exact ensures_pure fun _ holds => ⟨holds, replyText_tell _ call _⟩

theorem ensures_gateCalls_unreplied (closed : ClosedUnder .call property)
    (unreplied : replyText vars.messages = []) (calls : List ToolCall) :
    Ensures (fun state => property state.effects) (agent.gateCalls vars calls)
      (fun gated state => property state.effects ∧ replyText gated.1.messages = [])
      (fun _ state => property state.effects) := by
  induction calls generalizing vars with
  | nil => exact ensures_pure fun _ holds => ⟨holds, unreplied⟩
  | cons call rest ih =>
    refine ensures_bind _ (ensures_gateCall_unreplied closed unreplied call) ?_
    intro gated
    apply ensures_of_fact
    intro still
    refine ensures_bind _ (ih still) ?_
    intro others
    exact ensures_pure fun _ holds => holds

theorem ensures_collectResults_unreplied
    (unreplied : replyText vars.messages = []) (results : List (ToolCall × ToolResult)) :
    Ensures (fun state => property state.effects) (agent.collectResults vars results)
      (fun collected state => property state.effects ∧ replyText collected.1.messages = [])
      (fun _ state => property state.effects) := by
  induction results generalizing vars with
  | nil => exact ensures_pure fun _ holds => ⟨holds, unreplied⟩
  | cons entry rest ih =>
    have first : Ensures (fun state => property state.effects)
        (agent.collectResult vars entry.1 entry.2)
        (fun collected state => property state.effects ∧ replyText collected.1.messages = [])
        (fun _ state => property state.effects) := by
      unfold MessageLoopAgent.collectResult MessageLoopAgent.mergedTools
      refine ensures_bind (fun _ state => property state.effects) ?_ ?_
      · split
        · exact keeps_ask _
        · exact keeps_pure _
      · intro tools
        unfold MessageLoopAgent.runPostHook
        refine ensures_bind (fun _ state => property state.effects) ?_ ?_
        · cases agent.hookRunner with
          | none => exact keeps_pure ()
          | some hooks => exact Keeps.bind (keeps_ask _) fun _ => keeps_pure ()
        · intro _
          exact ensures_pure fun _ holds => ⟨holds, replyText_tell _ _ _⟩
    refine ensures_bind _ first ?_
    intro collected
    apply ensures_of_fact
    intro still
    refine ensures_bind _ (ih still) ?_
    intro others
    exact ensures_pure fun _ holds => holds

end Tools

variable {vars : LoopVars Tools}

variable (ctx : AgentContext)

theorem ensures_runTools {response : LLMResponse}
    (asked : response.toolCalls.isEmpty = false) (ended : Nat) :
    Ensures (fun state => Quiet agent ended state.effects) (agent.runTools ctx vars response)
      (fun ran state => Quiet agent (ended + 1) state.effects ∧ replyText ran.1.messages = [])
      (fun _ state => Quiet agent ended state.effects) := by
  have closed : ClosedUnder .call (Quiet agent ended) :=
    quiet_closed (by decide) (by decide) (by decide) (by decide)
  have unreplied : replyText (vars.push
      { role := .assistant, content := response.content, toolCalls := response.toolCalls }).messages
        = [] := by
    unfold LoopVars.push replyText
    rw [List.getLast?_concat]
    dsimp only
    rw [asked, if_neg]
    rintro ⟨_, impossible⟩
    cases impossible
  unfold MessageLoopAgent.runTools
  refine ensures_bind _ (keeps_note closed) fun _ => ?_
  refine ensures_bind _ (ensures_gateCalls_unreplied closed unreplied response.toolCalls) ?_
  intro gated
  apply ensures_of_fact
  intro still
  refine ensures_bind _ (MessageLoopAgent.keeps_executeCalls ctx closed gated.2) ?_
  intro results
  refine ensures_bind _ (ensures_collectResults_unreplied still results) ?_
  intro collected
  apply ensures_of_fact
  intro final
  refine ensures_bind (fun _ state => Quiet agent (ended + 1) state.effects) ?_
    fun _ => ensures_pure fun _ quiet => ⟨quiet, final⟩
  apply ensures_modify
  intro state quiet
  have next := @Quiet.append_singleton _ _ agent ended state.effects .turnEnded quiet (by decide)
    (by decide) (fun failure same => by cases same)
  exact next

/-! ## The loops side by side -/

variable {state after : LoopState World}

theorem run_chatRecovering_ok {answered : LoopVars Tools × LLMResponse}
    (ran : (agent.chat vars).run.run state = (.ok answered, after)) :
    (agent.chatRecovering vars).run.run state = (.ok (.ok answered), after) := by
  have attempted := run_attempt (agent.chat vars) state
  rw [ran] at attempted
  unfold MessageLoopAgent.chatRecovering
  exact run_bind_ok attempted

theorem run_chatRecovering_error {failure : String}
    (ran : (agent.chat vars).run.run state = (.error failure, after)) :
    (agent.chatRecovering vars).run.run state = (if agent.overflows failure then
        match agent.autoCompactor with
        | none => pure (.error "Context overflow: message history too large.")
        | some compactor => do
          let compacted ← MessageLoopAgent.compactMessages compactor vars (some 4)
          match ← attempt (agent.chat compacted) with
          | .ok answered => pure (.ok answered)
          | .error _ =>
            pure (.error "Context overflow: unable to recover after emergency compaction.")
      else throw failure : LoopProgram World _).run.run after := by
  have attempted := run_attempt (agent.chat vars) state
  rw [ran] at attempted
  unfold MessageLoopAgent.chatRecovering
  exact run_bind_ok attempted

def Ends (agent : MessageLoopAgent World Tools) (plain : LoopState World)
    (stream : LoopState World × List StreamEvent) : Prop :=
  Ending agent plain.effects stream.1.effects (textOf stream.2)

theorem run_emit_bind {Value : Type} (events sent : List StreamEvent) (state : LoopState World)
    (next : Unit -> MessageLoopAgent.StreamProgram World Value) :
    (MessageLoopAgent.emit events >>= next).run.run (state, sent) =
      (next ()).run.run (state, sent ++ events) :=
  rfl

variable {sent : List StreamEvent}

theorem textOf_append_silent (silent : textOf sent = [])
    {events : List StreamEvent} (none : textOf events = []) : textOf (sent ++ events) = [] := by
  rw [textOf_append, silent, none]
  rfl

theorem ends_exhausted (quiet : Quiet agent agent.maxTurns state.effects)
    (silent : textOf sent = []) (unreplied : replyText vars.messages = []) :
    Ends agent ((agent.turns ctx 0 vars).run.run state).2
      ((agent.streamTurns ctx 0 vars).run.run (state, sent)).2 := by
  refine shared_bind (Ends agent) (ensures_persistConversation ctx vars state.effects) ?_
    (fun _ _ impossible => impossible.elim) rfl
  intro _ after same
  change Ending agent after.effects after.effects (textOf (sent ++
    [.text "Max turns reached.", .done vars.totalTokens vars.totalToolCalls]))
  rw [same, textOf_append, silent]
  exact .exhausted state.effects vars.messages vars.totalTokens quiet unreplied

theorem ensures_streamed_persisted (ctx : AgentContext) {content : Option String}
    (messages : List Message) (final : LoopVars Tools) (before : List LoopEffect) :
    Ensures (fun state => state.1.effects = before ∧ textOf state.2 = [])
      (agent.streamAnswer messages content >>= fun _ =>
        onFirst (agent.persistConversation ctx final) >>= fun _ =>
          MessageLoopAgent.emit [.done final.totalTokens final.totalToolCalls])
      (fun _ state => ∃ added,
        state.1.effects = before ++ added ++ [.persisting final.messages final.totalTokens] ∧
          StreamedAs content added (textOf state.2))
      (fun _ _ => False) := by
  refine ensures_bind _ (ensures_streamAnswer messages content before) ?_
  rintro _ ⟨state, sent⟩ ⟨added, same, streamed⟩
  have saved : Ensures (fun current : LoopState World × List StreamEvent =>
        current.1.effects = before ++ added ∧ StreamedAs content added (textOf current.2))
      (onFirst (agent.persistConversation ctx final) >>= fun _ =>
        MessageLoopAgent.emit [.done final.totalTokens final.totalToolCalls])
      (fun _ current =>
        current.1.effects = before ++ added ++ [.persisting final.messages final.totalTokens] ∧
          StreamedAs content added (textOf current.2))
      (fun _ _ => False) := by
    have persisted := @ensures_onFirst _ _ _ _ _ _ _
      (fun current : List StreamEvent => StreamedAs content added (textOf current)) _
      (@ensures_persistConversation _ _ agent ctx final (before ++ added))
    refine ensures_bind _ (Ensures.raise persisted (fun _ _ impossible => impossible.1)) ?_
    intro _
    apply ensures_modify
    rintro current ⟨effects, text⟩
    refine ⟨effects, ?_⟩
    change StreamedAs content added (textOf (current.2 ++ [.done _ _]))
    rw [textOf_append]
    exact (List.append_nil (textOf current.2)).symm ▸ text
  have reached := saved (state, sent) ⟨same, streamed⟩
  generalize (onFirst (agent.persistConversation ctx final) >>= fun _ =>
    MessageLoopAgent.emit [.done final.totalTokens final.totalToolCalls]).run.run (state, sent) =
      outcome at reached ⊢
  rcases outcome with ⟨result, after⟩
  cases result with
  | ok value => exact ⟨added, reached⟩
  | error failure => exact reached.elim

variable {content : Option String}

theorem ends_answered (ctx : AgentContext) {counted : LoopVars Tools} (response : AgentResponse)
    (quiet : Quiet agent ended state.effects) (few : ended < agent.maxTurns)
    (silent : textOf sent = []) :
    let final := counted.push { role := .assistant, content := content }
    Ends agent
      (((agent.persistConversation ctx final >>= fun _ => pure response) :
        LoopProgram World AgentResponse).run.run state).2
      (((agent.streamAnswer counted.messages content >>= fun _ =>
        onFirst (agent.persistConversation ctx final) >>= fun _ =>
          MessageLoopAgent.emit [.done final.totalTokens final.totalToolCalls]) :
        MessageLoopAgent.StreamProgram World Unit).run.run (state, sent)).2 := by
  intro final
  have plain : Ensures (fun current => current.effects = state.effects)
      ((agent.persistConversation ctx final >>= fun _ => pure response) :
        LoopProgram World AgentResponse)
      (fun _ after => after.effects =
        state.effects ++ [.persisting final.messages final.totalTokens])
      (fun _ _ => False) :=
    ensures_bind _ (ensures_persistConversation ctx final state.effects)
      fun _ => ensures_pure fun _ same => same
  have saved := plain state rfl
  have sentToo := @ensures_streamed_persisted _ _ agent ctx content counted.messages final
    state.effects (state, sent) ⟨rfl, silent⟩
  unfold Ends
  generalize ((agent.persistConversation ctx final >>= fun _ => pure response) :
    LoopProgram World AgentResponse).run.run state = first at saved ⊢
  generalize ((agent.streamAnswer counted.messages content >>= fun _ =>
    onFirst (agent.persistConversation ctx final) >>= fun _ =>
      MessageLoopAgent.emit [.done final.totalTokens final.totalToolCalls]) :
    MessageLoopAgent.StreamProgram World Unit).run.run (state, sent) = second at sentToo ⊢
  rcases first with ⟨result, after⟩
  rcases second with ⟨outcome, last⟩
  cases result with
  | error failure => exact saved.elim
  | ok value =>
    cases outcome with
    | error failure => exact sentToo.elim
    | ok nothing =>
      rcases sentToo with ⟨added, same, streamed⟩
      have here : after.effects =
          state.effects ++ [.persisting final.messages final.totalTokens] := saved
      dsimp only
      rw [here, same]
      exact .answered ended state.effects added content final.messages final.totalTokens
        (textOf last.2) quiet few streamed (replyText_push counted content)

variable (base : List LoopEffect)

def Follows (effects : List LoopEffect) : Prop :=
  ∃ more, effects = base ++ more

theorem follows_closed (kind : EffectKind) : ClosedUnder kind (Follows base) := by
  rintro effects effect _ ⟨more, rfl⟩
  exact ⟨more ++ [effect], List.append_assoc base more [effect]⟩

theorem follows_runTools (vars : LoopVars Tools)
    (response : LLMResponse) : Keeps (Follows base) (agent.runTools ctx vars response) := by
  unfold MessageLoopAgent.runTools
  refine Keeps.bind (keeps_note (follows_closed base EffectKind.call)) fun _ => ?_
  refine Keeps.bind (MessageLoopAgent.keeps_gateCalls (follows_closed base .call) _ _) ?_
  intro gated
  refine Keeps.bind (MessageLoopAgent.keeps_executeCalls ctx (follows_closed base .call) gated.2) ?_
  intro results
  refine Keeps.bind (MessageLoopAgent.keeps_collectResults gated.1 results) ?_
  intro collected
  exact Keeps.bind (keeps_note (follows_closed base _)) fun _ => keeps_pure collected

theorem ends_overflowed {Value : Type} {compactor : AutoCompactor World}
    {base : List LoopEffect} {failure : String} (overflows : agent.overflows failure = true)
    (handled : agent.autoCompactor = some compactor)
    {next : LoopVars Tools -> LoopProgram World Value} (goesOn : ∀ compacted, Keeps
      (Follows (base ++ [.chatFailed failure] ++ [.compacting (some 4) vars.messages]))
      (next compacted)) (failed : state.effects = base ++ [.chatFailed failure])
    (silent : textOf sent = []) :
    Ends agent ((MessageLoopAgent.compactMessages compactor vars (some 4) >>= next).run.run state).2
      (state, sent) := by
  have follows : Ensures (fun current => current.effects = state.effects)
      (MessageLoopAgent.compactMessages compactor vars (some 4) >>= next)
      (fun _ after => Follows (state.effects ++ [.compacting (some 4) vars.messages]) after.effects)
      (fun _ after =>
        Follows (state.effects ++ [.compacting (some 4) vars.messages]) after.effects) := by
    rw [failed]
    unfold MessageLoopAgent.compactMessages
    refine ensures_bind _ (ensures_bind (fun _ after => Follows
      (base ++ [.chatFailed failure] ++ [.compacting (some 4) vars.messages]) after.effects) ?_ ?_)
      goesOn
    · apply ensures_modify
      intro current same
      exact ⟨[], by rw [List.append_nil, same]⟩
    · intro _
      exact Keeps.bind (keeps_ask _) fun _ => keeps_pure _
  rcases Ensures.after follows rfl with ⟨more, same⟩
  unfold Ends
  rw [same, failed, silent]
  exact .overflowed base more failure vars.messages overflows (by rw [handled]; rfl)

theorem ends_stopped (quiet : Quiet agent ended state.effects) (few : ended < agent.maxTurns)
    (silent : textOf sent = []) : Ends agent state (state, sent) := by
  unfold Ends
  rw [silent]
  exact .stopped ended state.effects quiet few

theorem ends_turns (left : Nat) (vars : LoopVars Tools)
    (state : LoopState World) (sent : List StreamEvent)
    (remaining : ended + left = agent.maxTurns) (quiet : Quiet agent ended state.effects)
    (silent : textOf sent = []) (unreplied : replyText vars.messages = []) :
    Ends agent ((agent.turns ctx left vars).run.run state).2
      ((agent.streamTurns ctx left vars).run.run (state, sent)).2 := by
  induction left generalizing vars state sent ended with
  | zero =>
    rw [Nat.add_zero] at remaining
    exact ends_exhausted ctx (remaining ▸ quiet) silent unreplied
  | succ left ih =>
    have few : ended < agent.maxTurns := by omega
    have compacting : Keeps (Quiet agent ended) (agent.autoCompact vars) :=
      MessageLoopAgent.keeps_autoCompact
        (quiet_closed (by decide) (by decide) (by decide) (by decide)) vars
    refine shared_bind (Ends agent) compacting ?_
      (fun _ _ quiet => ends_stopped quiet few silent) quiet
    rintro ⟨compacted, due⟩ begun quiet
    rw [run_emit_bind]
    have silent : textOf (sent ++ if due then [.compact] else []) = [] := by
      cases due with
      | true => exact textOf_append_silent silent rfl
      | false => exact textOf_append_silent silent rfl
    generalize (sent ++ if due then [.compact] else []) = sent at silent
    have chatted := @ensures_chat _ _ agent compacted begun.effects begun rfl
    rcases ran : (agent.chat compacted).run.run begun with ⟨result, after⟩
    rw [ran] at chatted
    have beside := run_onFirst ran sent
    cases result with
    | error failure =>
      rw [run_bind_error beside, run_bind_congr (run_chatRecovering_error ran)]
      have failed : after.effects = begun.effects ++ [.chatFailed failure] := chatted
      have stopped : (agent.overflows failure = true -> agent.autoCompactor.isNone = true) ->
          Ends agent after (after, sent) := by
        intro survives
        have next := @Quiet.append_singleton _ _ agent ended begun.effects
          (.chatFailed failure) quiet EffectKind.noConfusion EffectKind.noConfusion
          (fun other same => by cases same; exact survives)
        rw [← failed] at next
        exact ends_stopped next few silent
      split
      case isFalse able =>
        exact stopped fun overflows => (able overflows).elim
      case isTrue overflows =>
        cases handled : agent.autoCompactor with
        | none => exact stopped fun _ => by rw [handled]; rfl
        | some compactor =>
          rw [bind_assoc]
          refine ends_overflowed overflows handled ?_ failed silent
          intro again
          refine Keeps.bind ?_ ?_
          · refine Keeps.bind
              (Keeps.attempt (MessageLoopAgent.keeps_chat (follows_closed _ _) again)) ?_
            intro outcome
            cases outcome <;> exact keeps_pure _
          · intro outcome
            refine MessageLoopAgent.keeps_afterChat ctx (follows_closed _ _)
              (follows_runTools ctx _) ?_ compacted outcome
            intro others
            exact MessageLoopAgent.keeps_turns ctx (follows_closed _ _) (follows_closed _ _)
              (follows_closed _ _) (follows_runTools ctx _) left others
    | ok answered =>
      rw [run_bind_ok beside, run_bind_ok (run_chatRecovering_ok ran)]
      have same : after.effects = begun.effects := chatted
      rw [← same] at quiet
      unfold MessageLoopAgent.afterChat
      dsimp only
      split
      case isTrue => exact ends_answered ctx _ quiet few silent
      case isFalse asked =>
        rw [run_emit_bind]
        have silent : textOf (sent ++ [.toolStart (answered.2.toolCalls.map ToolCall.name)])
            = [] := textOf_append_silent silent rfl
        refine shared_bind (Ends agent)
          (ensures_runTools ctx (Bool.eq_false_iff.mpr asked) ended) ?_
          (fun _ _ quiet => ends_stopped quiet few silent) quiet
        rintro ⟨vars, results⟩ later ⟨quiet, unreplied⟩
        rw [run_emit_bind]
        exact ih vars later _ (by omega) quiet
          (textOf_append_silent silent rfl) unreplied

/-! ## When the loops agree -/

theorem filter_added {added : List LoopEffect} {text : List Char}
    (streamed : StreamedAs content added text) : added.filter LoopEffect.isDeed = [] := by
  cases streamed <;> rfl

theorem StreamedAs.text_eq_iff {added : List LoopEffect}
    {text : List Char} (streamed : StreamedAs content added text) : text = contentText content <->
      ∀ other chunks failure, .streamed other chunks failure ∈ added ->
        chunksText chunks = if failure.isSome then [] else contentText other := by
  cases streamed with
  | whole =>
    refine iff_of_true rfl ?_
    intro other chunks failure member
    cases member
  | chunks chunks failure =>
    have only : (∀ other more reason,
        LoopEffect.streamed other more reason ∈ [LoopEffect.streamed content chunks failure] ->
          chunksText more = if reason.isSome then [] else contentText other) <->
        chunksText chunks = if failure.isSome then [] else contentText content := by
      constructor
      · intro every
        exact every content chunks failure List.mem_cons_self
      · intro same other more reason member
        cases List.mem_singleton.mp member
        exact same
    rw [only]
    cases failure with
    | none => exact Iff.of_eq (congrArg (· = contentText content) (List.append_nil _))
    | some failure => exact List.append_left_eq_self

theorem Ending.agree_iff {plain stream : List LoopEffect} {events : List StreamEvent}
    (ending : Ending agent plain stream (textOf events)) : Agree plain stream events <->
      (∀ failure, .chatFailed failure ∈ stream -> agent.overflows failure = true ->
        agent.autoCompactor.isNone = true) ∧
      (∀ content chunks failure, .streamed content chunks failure ∈ stream ->
        chunksText chunks = if failure.isSome then [] else contentText content) ∧
      stream.countP LoopEffect.isTurnEnd < agent.maxTurns := by
  unfold Agree
  generalize textOf events = text at ending
  cases ending with
  | stopped ended common quiet few =>
    refine iff_of_true ⟨rfl, quiet.persistedText_eq.symm⟩ ⟨quiet.survives, ?_, ?_⟩
    · intro content chunks failure member
      exact (quiet.unsent content chunks failure member).elim
    · rw [quiet.turns]
      exact few
  | overflowed common more failure messages overflows compactor =>
    apply iff_of_false
    · rintro ⟨same, _⟩
      rw [List.filter_append, List.filter_append] at same
      have lengths := congrArg List.length same
      simp only [List.length_append, List.filter_cons, LoopEffect.isDeed, if_true,
        List.length_cons] at lengths
      omega
    · rintro ⟨survives, _⟩
      have handled := survives failure (List.mem_append_right _ List.mem_cons_self) overflows
      rw [Option.isNone_iff_eq_none.mp handled] at compactor
      cases compactor
  | answered ended common added content messages tokens text quiet few streamed reply =>
    have deeds : (common ++ [LoopEffect.persisting messages tokens]).filter LoopEffect.isDeed =
        (common ++ added ++ [LoopEffect.persisting messages tokens]).filter
          LoopEffect.isDeed := by
      rw [List.filter_append, List.filter_append, List.filter_append, filter_added streamed,
        List.append_nil]
    have persisted : persistedText (common ++ added ++ [.persisting messages tokens]) =
        contentText content := by
      have silent : persistedText added = [] := by
        cases streamed <;> rfl
      rw [persistedText_append, persistedText_append, quiet.persistedText_eq, silent, ← reply]
      exact List.append_nil _
    have members : ∀ effect : LoopEffect, effect.kind ≠ .persistence ->
        (effect ∈ common ++ added ++ [.persisting messages tokens] <->
          effect ∈ common ∨ effect ∈ added) := by
      intro effect other
      rw [List.mem_append, List.mem_append, List.mem_singleton]
      constructor
      · rintro (early | last)
        · exact early
        · exact (other (last ▸ rfl)).elim
      · exact Or.inl
    rw [and_iff_right deeds, persisted, streamed.text_eq_iff]
    constructor
    · intro repeats
      refine ⟨?_, ?_, ?_⟩
      · intro failure member
        rcases (members _ EffectKind.noConfusion).mp member with early | late
        · exact quiet.survives failure early
        · cases streamed with
          | whole => cases late
          | chunks => cases List.mem_singleton.mp late
      · intro other chunks failure member
        rcases (members _ EffectKind.noConfusion).mp member with early | late
        · exact (quiet.unsent other chunks failure early).elim
        · exact repeats other chunks failure late
      · have none : added.countP LoopEffect.isTurnEnd = 0 := by
          cases streamed <;> rfl
        rw [List.countP_append, List.countP_append, quiet.turns, none]
        exact few
    · rintro ⟨_, repeats, _⟩ other chunks failure late
      exact repeats other chunks failure ((members _ EffectKind.noConfusion).mpr (.inr late))
  | exhausted common messages tokens quiet reply =>
    apply iff_of_false
    · rintro ⟨_, same⟩
      rw [persistedText_append, quiet.persistedText_eq] at same
      change _ = [] ++ (replyText messages ++ []) at same
      rw [reply] at same
      exact absurd same (by decide)
    · rintro ⟨_, _, few⟩
      rw [List.countP_append, quiet.turns] at few
      exact absurd few (Nat.not_lt.mpr (Nat.le_add_right _ _))

theorem run_openConversation_ok {ctx : AgentContext} (message : String)
    {restored : Option (List Message)}
    (ran : (agent.restoreConversation ctx).run.run state = (.ok restored, after)) :
    ∃ vars : LoopVars Tools,
      (agent.openConversation message ctx).run.run state = (.ok vars, after) ∧
        replyText vars.messages = [] := by
  refine ⟨_, run_bind_ok ran, ?_⟩
  unfold replyText
  rw [List.getLast?_concat]
  rfl

theorem run_streamTurns_caught (ctx : AgentContext) (left : Nat) (vars : LoopVars Tools)
    (start : LoopState World × List StreamEvent) :
    let caught : MessageLoopAgent.StreamProgram World Unit :=
      tryCatch (agent.streamTurns ctx left vars) fun failure =>
        MessageLoopAgent.emit [.error failure]
    (caught.run.run start).2.1 = ((agent.streamTurns ctx left vars).run.run start).2.1 ∧
      textOf (caught.run.run start).2.2 =
        textOf ((agent.streamTurns ctx left vars).run.run start).2.2 := by
  intro caught
  generalize reached : ((agent.streamTurns ctx left vars).run.run start).2 = last
  have runs : Ensures (fun state => state = start) (agent.streamTurns ctx left vars)
      (fun _ state => state = last) (fun _ state => state = last) := by
    rintro state rfl
    rw [← reached]
    generalize (agent.streamTurns ctx left vars).run.run state = outcome
    rcases outcome with ⟨result, after⟩
    cases result <;> rfl
  have same : Ensures (fun state => state = start) caught
      (fun _ state => state.1 = last.1 ∧ textOf state.2 = textOf last.2)
      (fun _ state => state.1 = last.1 ∧ textOf state.2 = textOf last.2) := by
    refine ensures_tryCatch (Ensures.weaken runs (fun _ start => start) ?_
      (fun _ _ reached => reached)) ?_
    · rintro _ state rfl
      exact ⟨rfl, rfl⟩
    · intro failure
      apply ensures_modify
      rintro state rfl
      refine ⟨rfl, ?_⟩
      rw [textOf_append]
      exact List.append_nil _
  exact Ensures.after same rfl

/-- In every run: the two loops agree exactly if the model answers the streaming
loop faithfully. -/
theorem loops_agree_iff (agent : MessageLoopAgent World Tools) (world : World) (message : String)
    (ctx : AgentContext) :
    Agree (agent.effects world message ctx) (agent.streamEffects world message ctx)
        (agent.streamEvents world message ctx) <->
      Faithful agent world ctx (agent.streamEffects world message ctx) := by
  have unchanged : Keeps (fun effects => effects = []) (agent.restoreConversation ctx) := by
    unfold MessageLoopAgent.restoreConversation
    split
    · exact keeps_pure none
    · exact keeps_ask _
  have start := unchanged ⟨world, []⟩ rfl
  unfold MessageLoopAgent.effects MessageLoopAgent.streamEffects MessageLoopAgent.streamEvents
    MessageLoopAgent.handleMessage MessageLoopAgent.handleMessageStream
  rcases ran : (agent.restoreConversation ctx).run.run ⟨world, []⟩ with ⟨result, after⟩
  rw [ran] at start
  cases result with
  | error failure =>
    have same : after.effects = [] := start
    have opened : (agent.openConversation message ctx).run.run ⟨world, []⟩ =
        (.error failure, after) := run_bind_error ran
    rw [run_bind_error opened, run_bind_error (run_onFirst opened _)]
    dsimp only
    rw [same]
    refine iff_of_true ⟨rfl, rfl⟩ ⟨?_, ?_, .inr ⟨failure, by rw [ran]⟩⟩
    · intro failure member
      cases member
    · intro content chunks failure member
      cases member
  | ok restored =>
    have same : after.effects = [] := start
    rcases run_openConversation_ok message ran with ⟨vars, opened, unreplied⟩
    have quiet : Quiet agent 0 after.effects := by
      rw [same]
      refine ⟨?_, ?_, ?_, rfl⟩
      · intro content chunks failure member
        cases member
      · intro messages tokens member
        cases member
      · intro failure member
        cases member
    have ends := ends_turns ctx agent.maxTurns vars after [] (Nat.zero_add _) quiet rfl unreplied
    have caught := @run_streamTurns_caught _ _ agent ctx agent.maxTurns vars (after, [])
    rw [run_bind_ok opened, run_bind_ok (run_onFirst opened _)]
    unfold Ends at ends
    dsimp only at caught
    rw [← caught.1, ← caught.2] at ends
    rw [Ending.agree_iff ends]
    constructor
    · rintro ⟨survives, repeats, few⟩
      exact ⟨survives, repeats, .inl few⟩
    · intro faithful
      refine ⟨faithful.survives, faithful.repeats, faithful.answers.resolve_right ?_⟩
      rintro ⟨failure, unrestored⟩
      rw [ran] at unrestored
      cases unrestored

/-- The first conversation is too long for the model. -/
def overflowingModel : Provider Nat Unit where
  chat := fun _ _ answers =>
    if answers = 0 then (.error "prompt is too long: 200001 tokens", 1)
    else (.ok ⟨some "Hello.", [], 15⟩, answers + 1)
  chatStream := some fun _ answers => ((["Hel", "lo."], none), answers)
  toolSearch := false

def keepingCompactor : AutoCompactor Nat where
  shouldCompact := fun _ => false
  compact := fun messages _ answers => (.ok messages, answers)

def overflowingAgent : MessageLoopAgent Nat Unit :=
  { confirmingAgent "ls" [] none with
    provider := overflowingModel
    autoCompactor := some keepingCompactor }

/-- The plain loop compacts, asks again and persists the answer; the stream ends with an error. -/
theorem overflow_disagrees :
    Not (Agree (overflowingAgent.effects 0 "hi" cli) (overflowingAgent.streamEffects 0 "hi" cli)
      (overflowingAgent.streamEvents 0 "hi" cli)) := by
  rintro ⟨deeds, _⟩
  have lengths := congrArg List.length deeds
  have done : ((overflowingAgent.effects 0 "hi" cli).filter LoopEffect.isDeed).length = 2 := by
    decide +kernel
  have left : ((overflowingAgent.streamEffects 0 "hi" cli).filter LoopEffect.isDeed).length = 0 := by
    decide +kernel
  rw [done, left] at lengths
  cases lengths

end AgentLoop
end BreadMind
