import Mathlib.Data.List.TakeWhile
import BreadMind.Memory.Compressor
import BreadMind.Memory.TokenCounter

namespace BreadMind
namespace Memory

/-!
# Summarizing old turns when the context fills up

How texts are sanitized, how references in the old messages are found again,
and to which number the target is rounded is left open.
-/

structure ConversationSummarizer where
  model : String := ""
  providerModel : String := "claude-sonnet-4-6"
  keepRecent : Nat := 10
  target : Nat -> Int
  dumps : Json -> String
  sanitize : String -> String
  domainContext : List LLMMessage -> String

namespace ConversationSummarizer

variable (summarizer : ConversationSummarizer)

def effectiveModel (model : String) : String :=
  if model ≠ "" then model
  else if summarizer.model ≠ "" then summarizer.model
  else summarizer.providerModel

def part (message : LLMMessage) : Option String :=
  if message.hasContent = false then none
  else
    match message.role with
    | .user => some ("User: " ++ summarizer.sanitize (firstChars 500 message.text))
    | .assistant => some ("Assistant: " ++ summarizer.sanitize (firstChars 500 message.text))
    | .tool => some ("Tool result: " ++ summarizer.sanitize (firstChars 300 message.text))
    | .system => none

structure Turns where
  system : List LLMMessage
  old : List LLMMessage
  recent : List LLMMessage
  request : String

def summaryPrompt : String :=
  "Summarize this conversation concisely. Keep all key facts, decisions, " ++
    "tool results, and action items. Output only the summary, no preamble."

def isSystem (message : LLMMessage) : Bool := decide (message.role = .system)

variable (tools : List ToolDefinition)

/-- The split of the messages, unless they fit or there is nothing to summarize. -/
def turns (model : String) (messages : List LLMMessage) : Option Turns :=
  let tokens := TokenCounter.estimateMessagesTokens summarizer.dumps messages +
    TokenCounter.estimateToolsTokens summarizer.dumps tools
  if (tokens : Int) ≤ summarizer.target (TokenCounter.getModelLimit
      (summarizer.effectiveModel model)) then none
  else
    let remaining := messages.dropWhile isSystem
    if remaining.length ≤ summarizer.keepRecent then none
    else
      let old := butLast summarizer.keepRecent remaining
      let parts := old.filterMap summarizer.part
      if parts = [] then none
      else
        some
          { system := messages.takeWhile isSystem, old := old
            recent := lastOf summarizer.keepRecent remaining
            request := summaryPrompt ++ "\n\n" ++ firstChars 8000 (String.intercalate "\n" parts) }

theorem turns_some {summarizer : ConversationSummarizer} {tools : List ToolDefinition}
    {model : String} {messages : List LLMMessage} {parts : Turns}
    (split : summarizer.turns tools model messages = some parts) :
    (∀ message ∈ parts.system, message.role = .system) ∧
      parts.recent = lastOf summarizer.keepRecent messages := by
  unfold turns at split
  simp only at split
  split at split
  · cases split
  · split at split
    · cases split
    case isFalse enough =>
      split at split
      · cases split
      case isFalse some_ =>
        cases split
        refine ⟨fun message member => ?_, ?_⟩
        · have leading : isSystem message = true := List.mem_takeWhile_imp member
          exact of_decide_eq_true leading
        · have counts : summarizer.keepRecent ≠ 0 := by
            intro zero
            refine some_ ?_
            unfold butLast
            rw [if_pos zero]
            rfl
          have whole := @lastOf_append _ _ (messages.takeWhile isSystem) _ counts
            (Nat.le_of_lt (Nat.not_le.mp enough))
          rw [List.takeWhile_append_dropWhile] at whole
          exact whole.symm

def summaryMessage (old : List LLMMessage) (content : String) : LLMMessage where
  role := .system
  content := some ("[Earlier conversation summary]\n" ++ content ++ summarizer.domainContext old)

def fits (model : String) : List LLMMessage -> Bool :=
  TokenCounter.fitsInContext summarizer.dumps tools (summarizer.effectiveModel model) 4096

def summarizeIfNeeded (model : String) (chat : Chat)
    (messages : List LLMMessage) : List LLMMessage :=
  match summarizer.turns tools model messages with
  | none => messages
  | some turns =>
    match chat with
    | .answered content =>
      turns.system ++ [summarizer.summaryMessage turns.old (content.getD "")] ++ turns.recent
    | .raised => TokenCounter.trimMessagesToFit (summarizer.fits tools model) messages

end ConversationSummarizer

end Memory
end BreadMind
