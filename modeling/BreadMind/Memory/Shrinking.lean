import BreadMind.Memory.Pairing
import BreadMind.Memory.Summarizer
import BreadMind.Memory.WorkingMemory

namespace BreadMind
namespace Memory

/-!
# The operations which shrink a history

Each of them keeps an end of the history, with nothing but system messages put
before it.  Where it cuts is told by counts or by estimates, whatever exchange
of calls and answers stands at that place.
-/

/-! ## Where they cut -/

/-- Adding a message truncates only when it does not start a compression. -/
def addCut (memory : WorkingMemory) (session : Session) (message : LLMMessage) : Nat :=
  let messages := session.view.messages ++ [message]
  if memory.compressThreshold ≤ messages.length ∧ memory.provider = true ∧
      session.task.isNone = true then 0
  else if memory.maxMessages < messages.length then cutBefore memory.maxMessages messages
  else 0

def hooked (decision : Decision) (messages : List LLMMessage) : List LLMMessage :=
  match decision with
  | .modify (some patch) => patch
  | _ => messages

variable (keepRecent : Nat)

/-- A summary stands for all but the recent messages; without one twice as many
are kept. -/
def compressCut (decision : Decision) (chat : Chat) (messages : List LLMMessage) : Nat :=
  if decision matches .block then 0
  else if (splitHistory keepRecent messages).isNone = true then 0
  else if chat.summary.isSome = true then cutBefore keepRecent messages
  else cutBefore (keepRecent * 2) messages

/-- When the provider fails, the messages are trimmed. -/
def summarizeCut (summarizer : ConversationSummarizer) (tools : List ToolDefinition)
    (model : String) (chat : Chat) (messages : List LLMMessage) : Nat :=
  if (summarizer.turns tools model messages).isNone = true then 0
  else
    match chat with
    | .answered _ => cutBefore summarizer.keepRecent messages
    | .raised => TokenCounter.trimCut (summarizer.fits tools model) messages

variable {messages : List LLMMessage}

theorem paired_trimMessagesToFit (paired : Paired messages) (fits : List LLMMessage -> Bool) :
    Paired (TokenCounter.trimMessagesToFit fits messages) <->
      Not (StraddlesAt (TokenCounter.trimCut fits messages) messages) := by
  rcases TokenCounter.trimMessagesToFit_eq fits messages with ⟨front, system, whole⟩
  rw [whole]
  exact paired_cut paired system _

theorem paired_lastOf (paired : Paired messages) {front : List LLMMessage}
    (system : ∀ message ∈ front, message.role = .system) (count : Nat) :
    Paired (front ++ lastOf count messages) <->
      Not (StraddlesAt (cutBefore count messages) messages) := by
  rw [← drop_cutBefore]
  exact paired_cut paired system _

theorem paired_truncated (paired : Paired messages) (count : Nat) :
    Paired (truncateToolResults (lastOf count messages)) <->
      Not (StraddlesAt (cutBefore count messages) messages) :=
  paired_truncate.trans (paired_lastOf paired (List.forall_mem_nil _) count)

theorem paired_add (memory : WorkingMemory) (session : Session) (message : LLMMessage)
    (loop : Bool) (paired : Paired (session.view.messages ++ [message])) :
    Paired (session.add memory message loop).view.messages <->
      Not (StraddlesAt (addCut memory session message) (session.view.messages ++ [message])) := by
  unfold Session.add addCut View.add
  simp only
  split
  · exact paired_uncut paired
  · split
    · exact paired_truncated paired memory.maxMessages
    · exact paired_uncut paired

theorem paired_compressed (chat : Chat) (paired : Paired messages) :
    Paired (compressHistory.compressed keepRecent chat messages) <->
      Not (StraddlesAt (compressCut keepRecent .proceed chat messages) messages) := by
  unfold compressHistory.compressed compressCut
  simp only [Bool.false_eq_true, if_false]
  cases splits : splitHistory keepRecent messages with
  | none => exact paired_uncut paired
  | some split =>
    rcases splitHistory_some splits with ⟨_, _, recent, _⟩
    simp only [Option.isNone_some, Bool.false_eq_true, if_false]
    unfold afterChat
    cases chat.summary with
    | none => exact paired_truncated paired (keepRecent * 2)
    | some summary =>
      rw [recent]
      refine @paired_lastOf _ paired [_] ?_ keepRecent
      exact fun message member => (List.mem_singleton.mp member) ▸ rfl

theorem paired_compressHistory (decision : Decision) (chat : Chat)
    (paired : Paired (hooked decision messages)) :
    Paired (compressHistory keepRecent decision chat messages) <->
      Not (StraddlesAt (compressCut keepRecent decision chat (hooked decision messages))
        (hooked decision messages)) := by
  cases decision with
  | block => exact paired_uncut paired
  | proceed => exact paired_compressed keepRecent chat paired
  | modify patch =>
    cases patch with
    | none => exact paired_compressed keepRecent chat paired
    | some patch => exact paired_compressed keepRecent chat paired

theorem paired_summarizeIfNeeded (summarizer : ConversationSummarizer)
    (tools : List ToolDefinition) (model : String) (chat : Chat) (paired : Paired messages) :
    Paired (summarizer.summarizeIfNeeded tools model chat messages) <->
      Not (StraddlesAt (summarizeCut summarizer tools model chat messages) messages) := by
  unfold ConversationSummarizer.summarizeIfNeeded summarizeCut
  cases split : summarizer.turns tools model messages with
  | none => exact paired_uncut paired
  | some turns =>
    simp only [Option.isNone_some, Bool.false_eq_true, if_false]
    cases chat with
    | raised => exact paired_trimMessagesToFit paired _
    | answered content =>
      rcases ConversationSummarizer.turns_some split with ⟨system, recent⟩
      simp only
      rw [recent]
      refine paired_lastOf paired ?_ summarizer.keepRecent
      intro message member
      rcases List.mem_append.mp member with leading | summary
      · exact system message leading
      · rw [List.mem_singleton.mp summary]
        rfl

/-! ## The operations together -/

/-- A call of one of the four operations, with all that it reads. -/
inductive Shrinking where
  | addMessage (memory : WorkingMemory) (session : Session) (message : LLMMessage) (loop : Bool)
  | compressHistory (keepRecent : Nat) (decision : Decision) (chat : Chat)
      (messages : List LLMMessage)
  | summarizeIfNeeded (summarizer : ConversationSummarizer) (tools : List ToolDefinition)
      (model : String) (chat : Chat) (messages : List LLMMessage)
  | trimMessagesToFit (dumps : Json -> String) (tools : List ToolDefinition) (model : String)
      (reserve : Nat) (messages : List LLMMessage)

namespace Shrinking

def history : Shrinking -> List LLMMessage
  | addMessage _ session message _ => session.view.messages ++ [message]
  | compressHistory _ decision _ messages => hooked decision messages
  | summarizeIfNeeded _ _ _ _ messages => messages
  | trimMessagesToFit _ _ _ _ messages => messages

def result : Shrinking -> List LLMMessage
  | addMessage memory session message loop => (session.add memory message loop).view.messages
  | compressHistory keepRecent decision chat messages =>
    Memory.compressHistory keepRecent decision chat messages
  | summarizeIfNeeded summarizer tools model chat messages =>
    summarizer.summarizeIfNeeded tools model chat messages
  | trimMessagesToFit dumps tools model reserve messages =>
    TokenCounter.trimMessagesToFit (TokenCounter.fitsInContext dumps tools model reserve)
      messages

def cut : Shrinking -> Nat
  | addMessage memory session message _ => addCut memory session message
  | compressHistory keepRecent decision chat messages =>
    compressCut keepRecent decision chat (hooked decision messages)
  | summarizeIfNeeded summarizer tools model chat messages =>
    summarizeCut summarizer tools model chat messages
  | trimMessagesToFit dumps tools model reserve messages =>
    TokenCounter.trimCut (TokenCounter.fitsInContext dumps tools model reserve) messages

end Shrinking

/-- What an operation makes of a paired history is paired exactly when no
exchange stands across its cut. -/
theorem histories_paired (operation : Shrinking) (paired : Paired operation.history) :
    Paired operation.result <-> Not (StraddlesAt operation.cut operation.history) := by
  cases operation with
  | addMessage memory session message loop => exact paired_add memory session message loop paired
  | compressHistory keepRecent decision chat messages =>
    exact paired_compressHistory keepRecent decision chat paired
  | summarizeIfNeeded summarizer tools model chat messages =>
    exact paired_summarizeIfNeeded summarizer tools model chat paired
  | trimMessagesToFit dumps tools model reserve messages =>
    exact paired_trimMessagesToFit paired
      (TokenCounter.fitsInContext dumps tools model reserve)

def asked : LLMMessage :=
  { role := .assistant, toolCalls := [{ id := "c1", name := "shell_exec", arguments := .obj [] }] }

def answered : LLMMessage :=
  { role := .tool, content := some "[success=True] ok", toolCallId := some "c1"
    name := some "shell_exec" }

theorem paired_exchange : Paired [asked, answered] := by
  constructor
  · intro before message after split tool
    cases before with
    | nil =>
      cases split
      cases tool
    | cons first rest =>
      rcases List.cons.inj split with ⟨same, others⟩
      cases rest with
      | nil =>
        cases others
        exact ⟨"c1", rfl, first, List.mem_cons_self, same ▸ rfl,
          { id := "c1", name := "shell_exec", arguments := .obj [] },
          same ▸ List.mem_cons_self, rfl⟩
      | cons second more =>
        exact absurd (List.cons.inj others).2 (List.append_ne_nil_of_right_ne_nil more
          (List.cons_ne_nil message after)).symm
  · intro before message after split assistant call made
    cases before with
    | nil =>
      cases split
      rw [List.mem_singleton.mp made]
      exact ⟨answered, List.mem_cons_self, rfl, rfl⟩
    | cons first rest =>
      cases rest with
      | nil =>
        cases (List.cons.inj split).2
        cases assistant
      | cons second more =>
        exact absurd (List.cons.inj (List.cons.inj split).2).2
          (List.append_ne_nil_of_right_ne_nil more (List.cons_ne_nil message after)).symm

def greeting : LLMMessage := { role := .user, content := some "hello" }

theorem Paired.greeted {messages : List LLMMessage} (paired : Paired messages) :
    Paired (greeting :: messages) := by
  constructor
  · intro before message after split tool
    cases before with
    | nil =>
      cases split
      cases tool
    | cons first rest =>
      rcases paired.called rest message after (List.cons.inj split).2 tool with
        ⟨id, named, earlier, member, assistant⟩
      exact ⟨id, named, earlier, List.mem_cons_of_mem first member, assistant⟩
  · intro before message after split assistant
    cases before with
    | nil =>
      cases split
      cases assistant
    | cons first rest => exact paired.answered rest message after (List.cons.inj split).2 assistant

/-- A memory with room for both messages of the exchange, which loses the one before them. -/
theorem histories_exchange : Not (StraddlesAt
      (addCut { maxMessages := 2 } { view := { messages := [greeting, asked] } } answered)
      [greeting, asked, answered]) :=
  (histories_paired (.addMessage { maxMessages := 2 } { view := { messages := [greeting, asked] } }
    answered true) paired_exchange.greeted).mp paired_exchange

/-- With room for one message the answer is kept without its call. -/
theorem answer_without_call :
    Not (∀ operation : Shrinking, Paired operation.history -> Paired operation.result) := by
  intro claim
  have kept := claim (.addMessage { maxMessages := 1 } { view := { messages := [asked] } }
    answered true) paired_exchange
  rcases kept.called [] answered [] rfl rfl with ⟨_, _, _, none_, _⟩
  cases none_

end Memory
end BreadMind
