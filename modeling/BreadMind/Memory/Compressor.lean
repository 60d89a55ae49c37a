import BreadMind.Memory.Messages

namespace BreadMind
namespace Memory

/-!
# Compressing a history

The old messages are replaced by a summary which a provider writes, or, when it
does not, the history is cut.  Between the parts of `compress_history` stand the
hook and the call of the provider, so each part is a function of its own.
-/

def toolResultMaxLength : Nat := 300

variable (message : LLMMessage)

def truncateToolResult : LLMMessage :=
  if message.role = .tool ∧ toolResultMaxLength < message.text.length then
    let status :=
      if occursIn "[success=True]" message.text = true then "[success=True]"
      else if occursIn "[success=False]" message.text = true then "[success=False]"
      else ""
    { role := message.role
      content := some (status ++ " " ++ firstChars toolResultMaxLength message.text ++
        "... [truncated]")
      toolCallId := message.toolCallId, name := message.name }
  else if message.role = .user ∧ "[System] Tool".toList.isPrefixOf message.text.toList = true ∧
      toolResultMaxLength < message.text.length then
    { role := message.role
      content := some (firstChars toolResultMaxLength message.text ++ "... [truncated]") }
  else message

def truncateToolResults (messages : List LLMMessage) : List LLMMessage :=
  messages.map truncateToolResult

theorem truncateToolResult_role : (truncateToolResult message).role = message.role := by
  unfold truncateToolResult
  split
  · rfl
  · split
    · rfl
    · rfl

/-- What the hook before a compaction decides. -/
inductive Decision where
  | proceed
  | block
  | modify (messages : Option (List LLMMessage))

structure Split where
  existing : Option LLMMessage
  old : List LLMMessage
  recent : List LLMMessage

def summaryMark : String := "[대화 요약]"

/-- The message is taken for a summary of earlier ones. -/
def isSummary : Bool :=
  message.role = .system && occursIn summaryMark message.text

/-- The old messages without a summary at their head. -/
def splitOld : List LLMMessage -> Option LLMMessage × List LLMMessage
  | [] => (none, [])
  | first :: rest => if isSummary first = true then (some first, rest) else (none, first :: rest)

variable (keepRecent : Nat)

/-- The split of a history, unless there is nothing to compress. -/
def splitHistory (messages : List LLMMessage) : Option Split :=
  if messages.length ≤ keepRecent then none
  else
    let parts := splitOld (butLast keepRecent messages)
    if parts.2 = [] then none
    else
      some { existing := parts.1, old := parts.2, recent := lastOf keepRecent messages }

theorem splitOld_cons (first : LLMMessage) (rest : List LLMMessage) : splitOld (first :: rest) =
      if isSummary first = true then (some first, rest) else (none, first :: rest) :=
  rfl

theorem splitOld_append (old : List LLMMessage) :
    (splitOld old).1.toList ++ (splitOld old).2 = old := by
  cases old with
  | nil => rfl
  | cons first rest =>
    rw [splitOld_cons]
    split
    · rfl
    · rfl

theorem splitHistory_some {keepRecent : Nat} {messages : List LLMMessage} {split : Split}
    (splits : splitHistory keepRecent messages = some split) :
    messages = split.existing.toList ++ split.old ++ split.recent ∧ split.old ≠ [] ∧
      split.recent = lastOf keepRecent messages ∧
      ∀ first rest, split.old = first :: rest -> split.existing = none ->
        isSummary first = false := by
  unfold splitHistory at splits
  split at splits
  · cases splits
  · simp only at splits
    split at splits
    · cases splits
    case isFalse some_ =>
      cases splits
      refine ⟨?_, some_, rfl, ?_⟩
      · rw [splitOld_append]
        exact (butLast_append_lastOf keepRecent messages).symm
      · intro first rest old none_
        revert old none_
        cases butLast keepRecent messages with
        | nil => exact fun old => nomatch old
        | cons head tail =>
          rw [splitOld_cons]
          split
          · exact fun _ none_ => nomatch none_
          case isFalse plain =>
            intro same _
            cases same
            exact Bool.eq_false_iff.mpr plain

def roleLabel : Role -> String
  | .user => "사용자"
  | .assistant => "BreadMind"
  | .tool => "도구결과"
  | .system => "시스템"

def summaryLine : String :=
  let content :=
    if 500 < message.text.length then firstChars 500 message.text ++ "..." else message.text
  match message.name with
  | some name =>
    if name = "" then "[" ++ roleLabel message.role ++ "] " ++ content
    else "[" ++ roleLabel message.role ++ "/" ++ name ++ "] " ++ content
  | none => "[" ++ roleLabel message.role ++ "] " ++ content

variable (split : Split)

def textToSummarize : String :=
  let earlier :=
    match split.existing with
    | some summary => ["이전 요약:\n" ++ summary.text ++ "\n"]
    | none => []
  String.intercalate "\n" (earlier ++ ["추가 대화:"] ++ split.old.map summaryLine)

/-- The characters which `strip` takes away. -/
def isSpace (letter : Char) : Bool :=
  decide (9 ≤ letter.val ∧ letter.val ≤ 13) || decide (28 ≤ letter.val ∧ letter.val ≤ 32) ||
    decide (0x2000 ≤ letter.val ∧ letter.val ≤ 0x200a) ||
    decide (letter.val ∈ [0x85, 0xa0, 0x1680, 0x2028, 0x2029, 0x202f, 0x205f, 0x3000])

inductive Chat where
  | answered (content : Option String)
  | raised

/-- The summary which the answer contains, if it does. -/
def Chat.summary : Chat -> Option String
  | answered content =>
    if (content.getD "").toList.all isSpace = true then none else some (content.getD "")
  | raised => none

def summaryMessage (summary : String) : LLMMessage where
  role := .system
  content := some (summaryMark ++ " 이전 " ++ toString split.old.length ++ "개 메시지의 요약:\n\n" ++ summary)

/-- The fallback without a summary. -/
def cutHistory (messages : List LLMMessage) : List LLMMessage :=
  truncateToolResults (lastOf (keepRecent * 2) messages)

/-- The list after the answer of the provider; `messages` is what the list which
was to be compressed holds at that time. -/
def afterChat (messages : List LLMMessage) (chat : Chat) : List LLMMessage :=
  match chat.summary with
  | some summary => summaryMessage split summary :: split.recent
  | none => cutHistory keepRecent messages

/-- `compress_history`, while nobody else changes the list. -/
def compressHistory (keepRecent : Nat) (decision : Decision) (chat : Chat)
    (messages : List LLMMessage) : List LLMMessage :=
  match decision with
  | .block => messages
  | .modify (some patch) => compressed patch
  | .modify none | .proceed => compressed messages
where
  /-- The compression proper. -/
  compressed (messages : List LLMMessage) : List LLMMessage :=
    match splitHistory keepRecent messages with
    | none => messages
    | some split => afterChat keepRecent split messages chat

end Memory
end BreadMind
