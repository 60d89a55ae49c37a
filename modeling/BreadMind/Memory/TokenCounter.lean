import BreadMind.Memory.Messages
import Mathlib.Algebra.GroupWithZero.Nat

namespace BreadMind
namespace Memory

/-!
# Estimating tokens, and trimming to what fits

How arguments are written as JSON is left open.  The estimate divides exact
halves and quarters, so it is one division of natural numbers.
-/

structure ToolDefinition where
  name : String
  description : String
  parameters : Json

namespace TokenCounter

def cjkRanges : List (Nat × Nat) :=
  [(0x1100, 0x11ff), (0x2e80, 0x9fff), (0xac00, 0xd7af), (0xf900, 0xfaff), (0x20000, 0x2a6df),
    (0x2a700, 0x2b73f), (0x2b740, 0x2b81f), (0x2b820, 0x2ceaf), (0x2ceb0, 0x2ebef),
    (0x30000, 0x3134f)]

def isCjk (letter : Char) : Bool :=
  cjkRanges.any fun range => decide (range.1 ≤ letter.toNat ∧ letter.toNat ≤ range.2)

def estimateTokens (text : String) : Nat :=
  if text = "" then 0
  else
    let cjk := text.toList.countP isCjk
    max 1 ((2 * cjk + (text.length - cjk)) / 4)

def modelLimits : List (String × Nat) :=
  [("claude-sonnet-4-6", 200000), ("claude-haiku-4-5", 200000), ("claude-opus-4-6", 1000000),
    ("gpt-4o", 128000), ("gpt-4o-mini", 128000), ("o1", 200000), ("o1-mini", 128000),
    ("o3-mini", 200000), ("grok-3", 131072), ("grok-3-mini", 131072), ("gemini-2.5-flash", 1048576),
    ("gemini-2.5-pro", 1048576), ("deepseek-chat", 64000), ("deepseek-reasoner", 64000),
    ("mistral-large-latest", 128000), ("mistral-medium-latest", 128000),
    ("mistral-small-latest", 128000), ("codestral-latest", 256000),
    ("meta-llama/Meta-Llama-3.1-70B-Instruct-Turbo", 131072), ("llama-3.3-70b-versatile", 128000),
    ("llama-3.1-8b-instant", 131072), ("mixtral-8x7b-32768", 32768),
    ("anthropic.claude-sonnet-4-6-20250514-v1:0", 200000), ("amazon.nova-pro-v1:0", 300000),
    ("meta.llama3-1-70b-instruct-v1:0", 128000)]

def getModelLimit (model : String) : Nat := (modelLimits.lookup model).getD 200000

variable (dumps : Json -> String)

variable (messages : List LLMMessage)

def estimateMessagesTokens : Nat :=
  (messages.map fun message =>
    estimateTokens message.text + 4 + (message.toolCalls.map fun call =>
      estimateTokens call.name + estimateTokens (dumps call.arguments)).sum).sum

def estimateToolsTokens (tools : List ToolDefinition) : Nat :=
  (tools.map fun tool => estimateTokens tool.name + estimateTokens tool.description +
    estimateTokens (dumps tool.parameters)).sum

def fitsInContext (tools : List ToolDefinition) (model : String) (reserve : Nat)
    (messages : List LLMMessage) : Bool :=
  decide (estimateMessagesTokens dumps messages + estimateToolsTokens dumps tools + reserve ≤
    getModelLimit model)

/-- The first message, if it is a system message, and the others. -/
def firstSystem : List LLMMessage -> List LLMMessage × List LLMMessage
  | [] => ([], [])
  | first :: rest => if first.role = .system then ([first], rest) else ([], first :: rest)

/-- The loop which drops the oldest message of the middle until the rest fits. -/
def trimMiddle (fits : List LLMMessage -> Bool) (first last : List LLMMessage) :
    List LLMMessage -> List LLMMessage
  | [] => first ++ last
  | message :: middle =>
    if fits (first ++ (message :: middle) ++ last) = true then first ++ (message :: middle) ++ last
    else trimMiddle fits first last middle

variable (fits : List LLMMessage -> Bool)

/-- `trim_messages_to_fit`, with its test whether messages fit. -/
def trimMessagesToFit (messages : List LLMMessage) : List LLMMessage :=
  if fits messages = true then messages
  else
    let parts := firstSystem messages
    trimMiddle fits parts.1 parts.2.getLast?.toList parts.2.dropLast

/-- How many messages of the middle do not fit, with all that follows them. -/
def tooMany (first last middle : List LLMMessage) : Nat :=
  min (middle.tails.findIdx fun rest => fits (first ++ rest ++ last)) middle.length

/-- The position before which the messages are cut off, but for a system message. -/
def trimCut (messages : List LLMMessage) : Nat :=
  if fits messages = true then 0
  else
    let parts := firstSystem messages
    parts.1.length + tooMany fits parts.1 parts.2.getLast?.toList parts.2.dropLast

theorem firstSystem_cons (first : LLMMessage) (rest : List LLMMessage) :
    firstSystem (first :: rest) =
      if first.role = .system then ([first], rest) else ([], first :: rest) :=
  rfl

theorem firstSystem_append : (firstSystem messages).1 ++ (firstSystem messages).2 = messages := by
  cases messages with
  | nil => rfl
  | cons first rest =>
    rw [firstSystem_cons]
    split
    · rfl
    · rfl

theorem firstSystem_role {messages : List LLMMessage} {message : LLMMessage}
    (member : message ∈ (firstSystem messages).1) : message.role = .system := by
  cases messages with
  | nil => cases member
  | cons first rest =>
    rw [firstSystem_cons] at member
    split at member
    case isTrue system =>
      rw [List.mem_singleton.mp member]
      exact system
    case isFalse => cases member

theorem trimMiddle_eq (first last middle : List LLMMessage) : trimMiddle fits first last middle =
      first ++ middle.drop (tooMany fits first last middle) ++ last := by
  induction middle with
  | nil =>
    unfold trimMiddle
    rw [List.drop_nil, List.append_nil]
  | cons message rest ih =>
    unfold trimMiddle tooMany
    rw [List.tails_cons, List.findIdx_cons]
    cases here : fits (first ++ (message :: rest) ++ last) with
    | true => rw [if_pos rfl, cond_true, Nat.zero_min, List.drop_zero]
    | false =>
      rw [if_neg Bool.false_ne_true, cond_false, List.length_cons, Nat.succ_min_succ]
      exact ih

theorem dropLast_append_last : messages.dropLast ++ messages.getLast?.toList = messages := by
  rcases List.eq_nil_or_concat messages with none_ | ⟨front, last, whole⟩
  · rw [none_]
    rfl
  · rw [whole, List.concat_eq_append, List.dropLast_concat, List.getLast?_concat]
    rfl

theorem trimMessagesToFit_eq (messages : List LLMMessage) : ∃ front : List LLMMessage,
      (∀ message ∈ front, message.role = .system) ∧
        trimMessagesToFit fits messages = front ++ messages.drop (trimCut fits messages) := by
  unfold trimMessagesToFit trimCut
  by_cases whole : fits messages = true
  · rw [if_pos whole, if_pos whole]
    exact ⟨[], nofun, rfl⟩
  · rw [if_neg whole, if_neg whole]
    refine ⟨(firstSystem messages).1, fun message member => firstSystem_role member, ?_⟩
    simp only [trimMiddle_eq]
    have others := dropLast_append_last (firstSystem messages).2
    have inside : tooMany fits (firstSystem messages).1 (firstSystem messages).2.getLast?.toList
        (firstSystem messages).2.dropLast ≤ (firstSystem messages).2.dropLast.length :=
      Nat.min_le_right _ _
    calc
      (firstSystem messages).1 ++ (firstSystem messages).2.dropLast.drop _ ++
          (firstSystem messages).2.getLast?.toList =
          (firstSystem messages).1 ++ ((firstSystem messages).2.dropLast ++
            (firstSystem messages).2.getLast?.toList).drop _ := by
        rw [List.drop_append_of_le_length inside, List.append_assoc]
      _ = (firstSystem messages).1 ++ ((firstSystem messages).1 ++
          (firstSystem messages).2).drop ((firstSystem messages).1.length + _) := by
        rw [others, List.drop_length_add_append]
      _ = _ := by rw [firstSystem_append]

end TokenCounter

end Memory
end BreadMind
