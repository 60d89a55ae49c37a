import Mathlib.Data.List.TakeDrop
import BreadMind.Execution.Machine
import BreadMind.Memory.Pairing

namespace BreadMind
namespace AgentLoop
namespace AutoCompactor

open Execution
open Memory (LLMMessage Chat lastOf butLast firstChars isSpace)

/-!
# The compaction of a conversation

Four passes shrink a conversation: large tool results are cut, old ones are
cleared, old messages are summarized, and at last all but four of the newest
ones are.  Afterwards the instruction files are put behind the system message.

The estimate of the tokens is a parameter of the compactor; what the model
answers and what the files hold belong to the single compaction.  The hooks
before and after it see the messages and do not change them.
-/

inductive CompactionLevel where
  | none
  | toolResultTrim
  | snipOldResults
  | summarizeOld
  | aggressiveCompact
  deriving DecidableEq

def CompactionLevel.value : CompactionLevel -> Nat
  | none => 0
  | toolResultTrim => 1
  | snipOldResults => 2
  | summarizeOld => 3
  | aggressiveCompact => 4

structure CompactConfig where
  toolResultPreviewSize : Nat := 500
  keepRecent : Nat := 6
  preserveSystem : Bool := true

structure Compactor where
  config : CompactConfig := {}
  instructionFiles : List String := []
  compactInstructions : Option String := none
  determineLevel : List LLMMessage -> CompactionLevel := fun _ => .none

/-- One call of `compact`: the forced level, the answers of the model to the
summaries of the two levels, and what reading a file gives. -/
structure Call where
  forceLevel : Option CompactionLevel := none
  chat : CompactionLevel -> List LLMMessage -> Chat := fun _ _ => .raised
  read : String -> Option String := fun _ => none

/-- One message of `_trim_tool_results`. -/
def trimToolResult (previewSize : Nat) (message : LLMMessage) : LLMMessage :=
  if message.role = .tool ∧ 5000 < message.text.length then
    { role := message.role
      content := some (firstChars previewSize message.text ++ "\n[...trimmed]")
      toolCallId := message.toolCallId, name := message.name }
  else message

def clearToolResult (message : LLMMessage) : LLMMessage :=
  if message.role = .tool then
    { role := message.role, content := some "[Old tool result content cleared]"
      toolCallId := message.toolCallId, name := message.name }
  else message

def snipOldResults (keep : Nat) (messages : List LLMMessage) : List LLMMessage :=
  if messages.length ≤ keep then messages
  else messages.mapIdx fun index message =>
    if index < messages.length - keep then clearToolResult message else message

def roleText : Memory.Role -> String
  | .system => "system"
  | .user => "user"
  | .assistant => "assistant"
  | .tool => "tool"

def summaryPrompt (compactInstructions : Option String) (messages : List LLMMessage) :
    List LLMMessage :=
  let conversation := String.intercalate "\n" (messages.map fun message =>
    "[" ++ roleText message.role ++ "]: " ++
      if message.text = "" then "(empty)" else message.text)
  let systemContent :=
    "Summarize the following conversation concisely. " ++
    "Preserve key decisions, actions taken, and results. " ++
    "Keep technical details (commands, paths, error messages). " ++
    "Output a brief summary paragraph."
  let additional :=
    match compactInstructions with
    | some text => if text = "" then "" else "\n\nAdditional instructions: " ++ text
    | none => ""
  [{ role := .system, content := some (systemContent ++ additional) },
    { role := .user, content := some conversation }]

def summarize (compactInstructions : Option String) (chat : List LLMMessage -> Chat)
    (messages : List LLMMessage) : Option String :=
  match chat (summaryPrompt compactInstructions messages) with
  | .raised => none
  | .answered content =>
    some (if content.getD "" = "" then "Unable to summarize." else content.getD "")

def systemMessage (preserveSystem : Bool) (messages : List LLMMessage) : Option LLMMessage :=
  if preserveSystem = true then messages.head?.filter fun message => message.role = .system else none

/-- What the two summarizing levels share: all but the newest messages, and but
the system message, give way to a summary under a label. -/
def summarizeAllBut (keep : Nat) (label : String) (preserveSystem : Bool)
    (summary : List LLMMessage -> Option String) (messages : List LLMMessage) :
    Option (List LLMMessage) :=
  let systemMsg := systemMessage preserveSystem messages
  let startIdx := systemMsg.toList.length
  let old := if startIdx + keep < messages.length then (butLast keep messages).drop startIdx else []
  if old.isEmpty then some messages
  else
    match summary old with
    | none => none
    | some text =>
      some (systemMsg.toList ++ { role := .system, content := some (label ++ text) } ::
        lastOf keep messages)

def summarizeOld (keep : Nat) (preserveSystem : Bool) (summary : List LLMMessage -> Option String)
    (messages : List LLMMessage) : Option (List LLMMessage) :=
  if messages.length ≤ keep + 1 then some messages
  else summarizeAllBut keep "[Previous conversation summary] " preserveSystem summary messages

def aggressiveCompact (preserveSystem : Bool) (summary : List LLMMessage -> Option String)
    (messages : List LLMMessage) : Option (List LLMMessage) :=
  if messages.length ≤ 4 + (systemMessage preserveSystem messages).toList.length then some messages
  else summarizeAllBut 4 "[Aggressively compacted summary] " preserveSystem summary messages

def strip (text : String) : String :=
  String.ofList ((text.toList.dropWhile isSpace).reverse.dropWhile isSpace).reverse

def basename (path : String) : String :=
  String.ofList (path.toList.reverse.takeWhile fun letter => letter ≠ '/').reverse

/-- The text under which a file stands in the conversation; a file which cannot
be read, or holds nothing, stands nowhere. -/
def instructionText (read : String -> Option String) (path : String) : Option String :=
  match read path with
  | none => none
  | some text =>
    if strip text = "" then none
    else some ("[Instruction file: " ++ basename path ++ "]\n" ++ strip text)

def instructionTexts (files : List String) (read : String -> Option String) : List String :=
  files.filterMap (instructionText read)

def instructionMessage (text : String) : LLMMessage :=
  { role := .system, content := some text }

def insertInstructions (texts : List String) (messages : List LLMMessage) : List LLMMessage :=
  if messages.isEmpty then messages
  else
    let insertIdx := if messages.head?.any (fun message => message.role = .system) then 1 else 0
    messages.take insertIdx ++ texts.map instructionMessage ++ messages.drop insertIdx

end AutoCompactor

namespace AutoCompactor.Compactor

open Memory (LLMMessage)

variable (compactor : Compactor) (call : Call)

def level (messages : List LLMMessage) : CompactionLevel :=
  call.forceLevel.getD (compactor.determineLevel messages)

variable (level : CompactionLevel)

def summary : List LLMMessage -> Option String :=
  summarize compactor.compactInstructions (call.chat level)

def shortened (messages : List LLMMessage) : List LLMMessage :=
  let trimmed :=
    if 1 ≤ level.value then messages.map (trimToolResult compactor.config.toolResultPreviewSize)
    else messages
  if 2 ≤ level.value then snipOldResults compactor.config.keepRecent trimmed else trimmed

def passes (messages : List LLMMessage) : Option (List LLMMessage) := do
  let result := compactor.shortened level messages
  let result <-
    if 3 ≤ level.value then
      summarizeOld compactor.config.keepRecent compactor.config.preserveSystem
        (compactor.summary call .summarizeOld) result
    else some result
  if 4 ≤ level.value then
    aggressiveCompact compactor.config.preserveSystem (compactor.summary call .aggressiveCompact)
      result
  else some result

def compact (messages : List LLMMessage) : List LLMMessage :=
  let level := compactor.level call messages
  if level = .none then messages
  else
    match compactor.passes call level messages with
    | none => messages
    | some result =>
      insertInstructions (instructionTexts compactor.instructionFiles call.read) result

end AutoCompactor.Compactor
end AgentLoop
end BreadMind
